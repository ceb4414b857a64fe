import Reckon.Span

/-!
# Tokens

The words of the language: numerals, names, the keyword `render`, the signs, and the mark that
ends every text. A token keeps the text it was read from and where it stands; a numeral also keeps
its value.
-/

namespace Reckon

namespace Token

inductive Kind where
  | render
  | number
  | identifier
  | assign
  | plus
  | minus
  | times
  | divide
  | modulo
  | power
  | factorial
  | leftParen
  | rightParen
  | eof
  deriving DecidableEq, Repr, Inhabited

namespace Kind

/-- Every kind, in the order of the definition. -/
def all : List Kind :=
  [render, number, identifier, assign, plus, minus, times, divide, modulo, power, factorial,
    leftParen, rightParen, eof]

/-- The name of a kind in a token listing. -/
def name : Kind → String
  | render => "RENDER"
  | number => "NUMBER"
  | identifier => "IDENTIFIER"
  | assign => "ASSIGN"
  | plus => "PLUS"
  | minus => "MINUS"
  | times => "MULTIPLY"
  | divide => "DIVIDE"
  | modulo => "MODULO"
  | power => "EXPONENT"
  | factorial => "FACTORIAL"
  | leftParen => "LPAREN"
  | rightParen => "RPAREN"
  | eof => "END"

/-- How a kind is written in a message. -/
def symbol : Kind → String
  | render => "render"
  | number => "<number>"
  | identifier => "<identifier>"
  | assign => "="
  | plus => "+"
  | minus => "-"
  | times => "*"
  | divide => "/"
  | modulo => "%"
  | power => "^"
  | factorial => "!"
  | leftParen => "("
  | rightParen => ")"
  | eof => "<end of input>"

/-- The kind with a given listing name. -/
def ofName? (s : String) : Option Kind :=
  all.find? fun k => k.name == s

/-- The kind of a one-character sign. -/
def ofSign? : Char → Option Kind
  | '=' => some assign
  | '+' => some plus
  | '-' => some minus
  | '*' => some times
  | '/' => some divide
  | '%' => some modulo
  | '^' => some power
  | '!' => some factorial
  | '(' => some leftParen
  | ')' => some rightParen
  | _ => none

end Kind

end Token

/-- One word of a source text. -/
structure Token where
  kind : Token.Kind
  span : Span
  text : String
  /-- The value of a numeral; nothing for every other kind. -/
  value? : Option Nat := none
  deriving DecidableEq, Repr, Inhabited

namespace Token

/-- The end mark at a position. -/
def endAt (position : Nat) : Token :=
  ⟨.eof, .point position, "", none⟩

/-- The token as one line of a listing: numerals and names show their text. -/
def listing (t : Token) : String :=
  match t.kind with
  | .number | .identifier => t.kind.name ++ "(" ++ t.text ++ ")"
  | k => k.name

end Token

end Reckon
