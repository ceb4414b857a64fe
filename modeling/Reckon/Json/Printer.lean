import Reckon.Double.Shortest
import Reckon.Json.Basic
import Reckon.Text.Decimal

/-!
# Writing JSON

Two forms: `compact`, on one line and without blanks, and `pretty`, one item per line and indented
by two blanks per level. Strings escape quotes, backslashes and control characters, and nothing
else; so the compact form never holds a newline.
-/

namespace Reckon.Json

/-! ## Strings -/

/-- The digit of a number below sixteen. -/
def hexDigit (n : Nat) : Char :=
  Nat.digitChar (n % 16)

/-- How a character is written in a string. -/
def escape (c : Char) : List Char :=
  match c with
  | '"' => ['\\', '"']
  | '\\' => ['\\', '\\']
  | '\x08' => ['\\', 'b']
  | '\t' => ['\\', 't']
  | '\n' => ['\\', 'n']
  | '\x0c' => ['\\', 'f']
  | '\r' => ['\\', 'r']
  | c =>
    if c.toNat < 0x20 then ['\\', 'u', '0', '0', hexDigit (c.toNat / 16), hexDigit c.toNat]
    else [c]

/-- A string between quotes. -/
def quote (s : String) : String :=
  "\"" ++ String.ofList (s.toList.flatMap escape) ++ "\""

/-! ## Doubles -/

/-- Doubles of at least `10 ^ leastPositional` and below `10 ^ leastScientific` are written without
an exponent. -/
structure NumberForm where
  leastPositional : Int
  leastScientific : Int

/-- From 0.00001 up to, and without, 1e+16. -/
def numberForm : NumberForm :=
  ⟨-5, 16⟩

/-- A decimal without an exponent and with at least one digit after the point. -/
def positional (digits : List Char) (exponent : Int) : List Char :=
  let whole := exponent + digits.length
  if 0 ≤ exponent then digits ++ List.replicate exponent.toNat '0' ++ ['.', '0']
  else if 0 < whole then digits.take whole.toNat ++ '.' :: digits.drop whole.toNat
  else '0' :: '.' :: List.replicate (-whole).toNat '0' ++ digits

/-- A decimal with one digit before the point, if there is a point, and with a signed exponent. -/
def scientific (digits : List Char) (exponent : Int) : List Char :=
  let power := exponent + digits.length - 1
  let fraction := match digits.drop 1 with
    | [] => []
    | rest => '.' :: rest
  digits.take 1 ++ fraction ++ 'e' :: (if power < 0 then '-' else '+') ::
    Decimal.digits power.natAbs

/-- The text of a positive double. -/
def magnitude (b : Double.Binary) : List Char :=
  let s := b.shortest
  let digits := Decimal.digits s.significand
  let power := s.exponent + digits.length - 1
  if numberForm.leastPositional ≤ power ∧ power < numberForm.leastScientific then
    positional digits s.exponent
  else scientific digits s.exponent

/-- The text of a double; what is no number is null. -/
def doubleText (x : Float) : String :=
  let bits := x.toBits.toNat
  let size := bits % 0x8000000000000000
  if 0x7ff0000000000000 ≤ size then "null"
  else
    let text := if size = 0 then ['0', '.', '0'] else magnitude (.ofBits size)
    String.ofList (if bits < 0x8000000000000000 then text else '-' :: text)

/-! ## Values -/

mutual

/-- A value on one line, without blanks. -/
def compact (j : Json) : String :=
  match j with
  | null => "null"
  | bool b => if b then "true" else "false"
  | int n => Decimal.text n
  | double x => doubleText x
  | string s => quote s
  | array items => "[" ++ compactItems items ++ "]"
  | object members => "\x7b" ++ compactMembers members ++ "\x7d"

def compactItems (items : List Json) : String :=
  match items with
  | [] => ""
  | j :: rest => compact j ++ (if rest.isEmpty then "" else ",") ++ compactItems rest

def compactMembers (members : List (String × Json)) : String :=
  match members with
  | [] => ""
  | (name, j) :: rest =>
    quote name ++ ":" ++ compact j ++ (if rest.isEmpty then "" else ",") ++ compactMembers rest

end

/-- A new line at an indentation level. -/
def newLine (level : Nat) : String :=
  String.ofList ('\n' :: List.replicate (2 * level) ' ')

mutual

/-- A value with one item per line; empty arrays and objects stay on their line. -/
def prettyAt (level : Nat) (j : Json) : String :=
  match j with
  | null => "null"
  | bool b => if b then "true" else "false"
  | int n => Decimal.text n
  | double x => doubleText x
  | string s => quote s
  | array items =>
    if items.isEmpty then "[]"
    else "[" ++ prettyItems (level + 1) items ++ newLine level ++ "]"
  | object members =>
    if members.isEmpty then "\x7b\x7d"
    else "\x7b" ++ prettyMembers (level + 1) members ++ newLine level ++ "\x7d"

def prettyItems (level : Nat) (items : List Json) : String :=
  match items with
  | [] => ""
  | j :: rest =>
    newLine level ++ prettyAt level j ++ (if rest.isEmpty then "" else ",") ++
      prettyItems level rest

def prettyMembers (level : Nat) (members : List (String × Json)) : String :=
  match members with
  | [] => ""
  | (name, j) :: rest =>
    newLine level ++ quote name ++ ": " ++ prettyAt level j ++
      (if rest.isEmpty then "" else ",") ++ prettyMembers level rest

end

/-- A value over several lines. -/
def pretty (j : Json) : String :=
  prettyAt 0 j

end Reckon.Json
