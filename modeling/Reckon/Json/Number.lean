import Reckon.Json.Basic
import Reckon.Text.Decimal

/-!
# Reading JSON numbers

A numeral is first cut into its parts and then given a value. An integer that fits 64 bits keeps its
value, except that minus zero is a double. For a double, digits are gathered into a 64-bit
significand. Digits of the whole part that do not fit only raise the exponent, and digits of the
fraction that do not fit are dropped. The significand is rounded to a double and multiplied or
divided by a power of ten, which rounds once more.
-/

namespace Reckon.Json

/-- The reason why a text is not JSON. -/
inductive Cause where
  | endOfValue
  | endOfList
  | endOfObject
  | endOfString
  | expectedValue
  | expectedLiteral
  | expectedColon
  | expectedListCommaOrEnd
  | expectedObjectCommaOrEnd
  | keyMustBeString
  | trailingComma
  | trailingCharacters
  | invalidNumber
  | numberOutOfRange
  | invalidEscape
  | endOfHexEscape
  | loneSurrogate
  | controlCharacter
  | nestingTooDeep
  deriving DecidableEq, Repr

/-- A cause with the number of bytes up to it. -/
structure Fault where
  cause : Cause
  offset : Nat
  deriving DecidableEq, Repr

/-- The parts of a numeral. A numeral without a fraction and an exponent is an integer. -/
structure Numeral where
  negative : Bool
  whole : List Char
  fraction : List Char
  /-- The exponent with a mark for a minus sign. -/
  exponent? : Option (Bool × List Char)
  deriving DecidableEq, Repr

namespace Numeral

/-! ## Parts -/

/-- Reads the exponent, if the text goes on with one, after `count` characters of a numeral; gives
the number of characters of the whole numeral. -/
def scanExponent (offset count : Nat) (cs : List Char) :
    Except Fault (Option (Bool × List Char) × Nat) :=
  match cs with
  | [] => .ok (none, count)
  | c :: rest =>
    if c = 'e' ∨ c = 'E' then
      let negative := rest.head? = some '-'
      let signed := negative ∨ rest.head? = some '+'
      let count := if signed then count + 2 else count + 1
      let rest := if signed then rest.drop 1 else rest
      let digits := rest.takeWhile Char.isDigit
      if rest.isEmpty then .error ⟨.endOfValue, offset + count⟩
      else if digits.isEmpty then .error ⟨.invalidNumber, offset + count + 1⟩
      else .ok (some (negative, digits), count + digits.length)
    else .ok (none, count)

/-- Reads the numeral at the front of a text, after its sign, and counts its characters. -/
def scan (negative : Bool) (offset : Nat) (cs : List Char) : Except Fault (Numeral × Nat) := do
  let digits := cs.takeWhile Char.isDigit
  if cs.isEmpty then .error ⟨.endOfValue, offset⟩
  else if digits.isEmpty then .error ⟨.invalidNumber, offset + 1⟩
  else if digits.head? = some '0' ∧ 1 < digits.length then .error ⟨.invalidNumber, offset + 2⟩
  else
    let count := digits.length
    match cs.drop count with
    | '.' :: rest =>
      let fraction := rest.takeWhile Char.isDigit
      let count := count + 1
      if rest.isEmpty then .error ⟨.endOfValue, offset + count⟩
      else if fraction.isEmpty then .error ⟨.invalidNumber, offset + count + 1⟩
      else
        let (exponent?, count) ←
          scanExponent offset (count + fraction.length) (rest.drop fraction.length)
        return (⟨negative, digits, fraction, exponent?⟩, count)
    | rest =>
      let (exponent?, count) ← scanExponent offset count rest
      return (⟨negative, digits, [], exponent?⟩, count)

/-! ## Value -/

/-- Appends digits to a number as long as it stays below a bound; gives the digits left over. -/
def gather (bound n : Nat) : List Char → Nat × List Char
  | [] => (n, [])
  | d :: ds =>
    let next := 10 * n + (d.toNat - '0'.toNat)
    if next < bound then gather bound next ds else (n, d :: ds)

/-- The double nearest to a power of ten. -/
def powerOfTen (k : Nat) : Float :=
  Float.ofScientific 1 false k

theorem sub_lt_of_not_le {k : Nat} (h : ¬ k ≤ 308) : k - 308 < k := by
  omega

/-- Divides by a power of ten, in steps that are doubles. -/
def divide (x : Float) (k : Nat) : Float :=
  if k ≤ 308 then x / powerOfTen k
  else if x == 0.0 then x
  else divide (x / powerOfTen 308) (k - 308)
termination_by k
decreasing_by exact sub_lt_of_not_le ‹_›

/-- The double for a significand and an exponent of ten, unless it is too large. -/
def scale? (significand : Nat) (exponent : Int) : Option Float :=
  let x := significand.toUInt64.toFloat
  if exponent < 0 then some (divide x exponent.natAbs)
  else if exponent ≤ 308 then
    let y := x * powerOfTen exponent.toNat
    if y.isInf then none else some y
  else if x == 0.0 then some x
  else none

/-- The value of a numeral. The offset is that of its end. -/
def value (n : Numeral) (offset : Nat) : Except Fault Json :=
  let (whole, extra) := gather UInt64.size 0 n.whole
  let signed (x : Float) : Json := .double (if n.negative then -x else x)
  if n.fraction.isEmpty && n.exponent?.isNone && extra.isEmpty then
    if !n.negative then .ok (.int whole)
    else if whole = 0 ∨ 0x8000000000000000 < whole then .ok (signed whole.toUInt64.toFloat)
    else .ok (.int (-whole))
  else
    let (significand, dropped) := gather UInt64.size whole n.fraction
    let shift : Int := extra.length - (n.fraction.length - dropped.length : Nat)
    let scaled (exponent : Int) : Except Fault Json :=
      match scale? significand exponent with
      | some x => .ok (signed x)
      | none => .error ⟨.numberOutOfRange, offset⟩
    match n.exponent? with
    | none => scaled shift
    | some (negative, digits) =>
      let (exponent, beyond) := gather 0x80000000 0 digits
      if beyond.isEmpty then scaled (if negative then shift - exponent else shift + exponent)
      else if negative ∨ significand = 0 then .ok (signed 0.0)
      else .error ⟨.numberOutOfRange, offset - (beyond.length - 1)⟩

end Numeral

end Reckon.Json
