import Reckon.Entries
import Reckon.Text.Decimal

/-!
# TOML values and plain scalars

The values of a settings file, and the reading of those that are written without quotes or
brackets: booleans, integers, floats, dates and times. Such a scalar is a word of letters, digits
and a few signs, and the whole word has to be a scalar. Integers have 64 bits. Floats and times are
recognised, but only their text is kept.
-/

namespace Reckon.Toml

inductive Value where
  | string (s : String)
  | integer (n : Int)
  | float (text : String)
  | boolean (b : Bool)
  | dateTime (text : String)
  | array (items : List Value)
  | table (entries : List (String × Value))
  deriving Inhabited

namespace Scalar

/-- The characters of plain scalars. -/
def isWordChar (c : Char) : Bool :=
  c.isAlphanum || c == '+' || c == '-' || c == '_' || c == '.' || c == ':'

/-! ## Digits with underscores -/

/-- The digits of a row in which single underscores may stand between digits. -/
def digitsOf? (isDigit : Char → Bool) : List Char → Option (List Char)
  | [] => none
  | [c] => if isDigit c then some [c] else none
  | c :: '_' :: rest =>
    if isDigit c then (digitsOf? isDigit rest).map (c :: ·) else none
  | c :: rest => if isDigit c then (digitsOf? isDigit rest).map (c :: ·) else none

/-- The value of digits in a base up to sixteen. -/
def valueOf (base : Nat) (digits : List Char) : Nat :=
  digits.foldl (fun n c => base * n + digitValue c) 0
where
  digitValue (c : Char) : Nat :=
    if c.isDigit then c.toNat - '0'.toNat else c.toLower.toNat - 'a'.toNat + 10

def isHexDigit (c : Char) : Bool :=
  c.isDigit || ('a' ≤ c.toLower && c.toLower ≤ 'f')

def isOctalDigit (c : Char) : Bool :=
  '0' ≤ c && c ≤ '7'

def isBinaryDigit (c : Char) : Bool :=
  c == '0' || c == '1'

/-- A word without its sign, and whether the sign is a minus. -/
def splitSign : List Char → Bool × List Char
  | '-' :: rest => (true, rest)
  | '+' :: rest => (false, rest)
  | word => (false, word)

/-- The digits of a decimal integer without its sign: no zero stands in front of other digits. -/
def decimalOf? (word : List Char) : Option (List Char) := do
  let digits ← digitsOf? Char.isDigit word
  if digits.head? = some '0' ∧ 1 < digits.length then none else some digits

/-! ## Integers -/

/-- An integer of 64 bits with a sign. -/
def bounded (n : Int) : Option Int :=
  if -0x8000000000000000 ≤ n ∧ n < 0x8000000000000000 then some n else none

def integer? (word : List Char) : Option Int :=
  match word with
  | '0' :: 'x' :: rest => do bounded (valueOf 16 (← digitsOf? isHexDigit rest))
  | '0' :: 'o' :: rest => do bounded (valueOf 8 (← digitsOf? isOctalDigit rest))
  | '0' :: 'b' :: rest => do bounded (valueOf 2 (← digitsOf? isBinaryDigit rest))
  | _ => do
    let (negative, rest) := splitSign word
    let n : Int := valueOf 10 (← decimalOf? rest)
    bounded (if negative then -n else n)

/-! ## Floats -/

/-- The least decimal that rounds to infinity as a double. -/
def infinityBound : Nat :=
  Nat.pow 2 1024 - Nat.pow 2 970

/-- Whether `digits * 10 ^ exponent` rounds to infinity as a double. Far from the bound the number
of digits decides. -/
def isInfinite (digits : List Char) (exponent : Int) : Bool :=
  let significant := digits.dropWhile (· == '0')
  let size := significant.length + exponent
  if significant.isEmpty || size < 300 then false
  else if 320 < size then true
  else
    let n := valueOf 10 significant
    decide (infinityBound * Nat.pow 10 (-exponent).toNat ≤ n * Nat.pow 10 exponent.toNat)

/-- The exponent of a float, after its mark. -/
def exponentOf? (word : List Char) : Option Int := do
  let (negative, rest) := splitSign word
  let n : Int := valueOf 10 (← digitsOf? Char.isDigit rest)
  return if negative then -n else n

/-- Whether a word is a float. One that is too large is none, unless it is negative. -/
def isFloat (word : List Char) : Bool :=
  let (negative, rest) := splitSign word
  if rest = ['i', 'n', 'f'] ∨ rest = ['n', 'a', 'n'] then true
  else
    let isMark (c : Char) : Bool := c == 'e' || c == 'E'
    let mantissa := rest.takeWhile (!isMark ·)
    let exponent? := match rest.dropWhile (!isMark ·) with
      | [] => some 0
      | _ :: digits => exponentOf? digits
    let whole? := decimalOf? (mantissa.takeWhile (· != '.'))
    let fraction? := match mantissa.dropWhile (· != '.') with
      | [] => if mantissa.length < rest.length then some [] else none
      | _ :: digits => digitsOf? Char.isDigit digits
    match whole?, fraction?, exponent? with
    | some whole, some fraction, some exponent =>
      negative || !isInfinite (whole ++ fraction) (exponent - fraction.length)
    | _, _, _ => false

/-! ## Dates and times -/

/-- The value of a row of exactly `count` digits. -/
def fixed? (count : Nat) (word : List Char) : Option Nat :=
  if word.length = count ∧ word.all Char.isDigit then some (Decimal.value word) else none

/-- The number of days of a month. -/
def daysIn (year month : Nat) : Nat :=
  if month = 2 then
    if year % 4 = 0 ∧ (year % 100 ≠ 0 ∨ year % 400 = 0) then 29 else 28
  else if month = 4 ∨ month = 6 ∨ month = 9 ∨ month = 11 then 30
  else 31

/-- Whether a word is a date such as `1979-05-27`. -/
def isDate (word : List Char) : Bool :=
  match fixed? 4 (word.take 4), fixed? 2 ((word.drop 5).take 2), fixed? 2 (word.drop 8) with
  | some year, some month, some day =>
    word[4]? == some '-' && word[7]? == some '-' && decide (1 ≤ month) && decide (month ≤ 12) &&
      decide (1 ≤ day) && decide (day ≤ daysIn year month)
  | _, _, _ => false

/-- Whether a word is an hour and a minute such as `07:32`. -/
def isHourMinute (word : List Char) : Bool :=
  match fixed? 2 (word.take 2), fixed? 2 (word.drop 3) with
  | some hour, some minute => word[2]? == some ':' && decide (hour ≤ 23) && decide (minute ≤ 59)
  | _, _ => false

/-- Whether a word is a time such as `07:32:00.5`. A second may be a leap second. -/
def isTime (word : List Char) : Bool :=
  let fraction := word.drop 8
  isHourMinute (word.take 5) && word[5]? == some ':' &&
    (match fixed? 2 ((word.drop 6).take 2) with
      | some second => decide (second ≤ 60)
      | none => false) &&
    (fraction.isEmpty ||
      (fraction.head? == some '.' && 1 < fraction.length && (fraction.drop 1).all Char.isDigit))

/-- Whether a word is a time, with or without an offset. -/
def isOffsetTime (word : List Char) : Bool :=
  let isStart (c : Char) : Bool := c == 'Z' || c == 'z' || c == '+' || c == '-'
  isTime (word.takeWhile (!isStart ·)) &&
    match word.dropWhile (!isStart ·) with
    | [] => true
    | ['Z'] | ['z'] => true
    | c :: rest => (c == '+' || c == '-') && isHourMinute rest

/-- Whether a word is a date and a time with a letter between them. -/
def isDateTime (word : List Char) : Bool :=
  isDate (word.take 10) && (word[10]? == some 'T' || word[10]? == some 't') &&
    isOffsetTime (word.drop 11)

/-- The value of a word. -/
def ofWord? (word : List Char) : Option Value :=
  if word = ['t', 'r', 'u', 'e'] then some (.boolean true)
  else if word = ['f', 'a', 'l', 's', 'e'] then some (.boolean false)
  else if isDate word || isTime word || isDateTime word then
    some (.dateTime (String.ofList word))
  else if isFloat word then some (.float (String.ofList word))
  else (integer? word).map .integer

end Scalar

end Reckon.Toml
