import Reckon.Text.Printable

/-!
# Quoted text

Messages quote foreign text so that every character can be seen: quotes, backslashes and four
control characters have short escapes, and any other character that cannot be shown on its own is
written as its code point in hexadecimal.
-/

namespace Reckon.Quoted

/-- How a character is written in quoted text. -/
def escape (c : Char) : List Char :=
  match c with
  | '\x00' => ['\\', '0']
  | '\t' => ['\\', 't']
  | '\n' => ['\\', 'n']
  | '\r' => ['\\', 'r']
  | '"' => ['\\', '"']
  | '\\' => ['\\', '\\']
  | c =>
    if Printable.isPrintable c then [c]
    else '\\' :: 'u' :: '\x7b' :: Nat.toDigits 16 c.toNat ++ ['\x7d']

/-- A text between quotes. -/
def quote (s : String) : String :=
  "\"" ++ String.ofList (s.toList.flatMap escape) ++ "\""

end Reckon.Quoted
