import Reckon.Text.Decimal
import Reckon.Text.Front
import Reckon.Token

/-!
# Reading tokens

`Token.lex` cuts a source text into tokens by longest match. Six characters separate tokens and
belong to none. A character that is neither a separator nor part of a token ends the reading with
a `LexError`; nothing else does.

* `lexFrom_nil`, `lexFrom_cons`: the one-step equations of the reader.
-/

namespace Reckon

/-- The reason why a text has no tokens: a character that belongs to none, at a byte offset. -/
inductive LexError where
  | unexpectedCharacter (char : Char) (position : Nat)
  deriving DecidableEq, Repr

namespace Token

/-- Space, tab, carriage return, newline, form feed and vertical tab separate tokens. -/
def isSeparator (c : Char) : Bool :=
  c == ' ' || c == '\t' || c == '\r' || c == '\n' || c == '\x0c' || c == '\x0b'

/-- A name starts with an ASCII letter or an underscore. -/
def isNameStart (c : Char) : Bool :=
  c.isAlpha || c == '_'

/-- A name goes on with ASCII letters, digits and underscores. -/
def isNamePart (c : Char) : Bool :=
  c.isAlphanum || c == '_'

/-- The numeral with the given digits, which start at a byte offset. -/
def numeral (offset : Nat) (ds : List Char) : Token :=
  ⟨.number, ⟨offset, offset + ds.length⟩, String.ofList ds, some (Decimal.value ds)⟩

/-- The name with the given characters; `render` is a keyword. -/
def word (offset : Nat) (cs : List Char) : Token :=
  let text := String.ofList cs
  ⟨if text = "render" then .render else .identifier, ⟨offset, offset + cs.length⟩, text, none⟩

/-- The sign with the given character. -/
def sign (offset : Nat) (kind : Kind) (c : Char) : Token :=
  ⟨kind, ⟨offset, offset + 1⟩, String.singleton c, none⟩

/-- Reads the tokens of a text that starts at a byte offset. Every character that is consumed is an
ASCII character, so offsets advance by one per character. -/
def lexFrom (offset : Nat) (cs : List Char) : Except LexError (List Token) :=
  match cs with
  | [] => .ok [endAt offset]
  | c :: rest =>
    if isSeparator c then
      lexFrom (offset + 1) rest
    else if c.isDigit then
      let ds := rest.takeWhile Char.isDigit
      (lexFrom (offset + 1 + ds.length) (rest.dropWhile Char.isDigit)).map
        (numeral offset (c :: ds) :: ·)
    else if isNameStart c then
      let part := rest.takeWhile isNamePart
      (lexFrom (offset + 1 + part.length) (rest.dropWhile isNamePart)).map
        (word offset (c :: part) :: ·)
    else
      match Kind.ofSign? c with
      | some kind => (lexFrom (offset + 1) rest).map (sign offset kind c :: ·)
      | none => .error (.unexpectedCharacter c offset)
termination_by cs.length
decreasing_by
  · exact Front.length_lt_cons c rest
  · exact Front.length_dropWhile_lt_cons Char.isDigit c rest
  · exact Front.length_dropWhile_lt_cons isNamePart c rest
  · exact Front.length_lt_cons c rest

/-- The tokens of a source text, with the end mark last. -/
def lex (source : String) : Except LexError (List Token) :=
  lexFrom 0 source.toList

theorem lexFrom_nil (offset : Nat) : lexFrom offset [] = .ok [endAt offset] := by
  rw [lexFrom]

theorem lexFrom_cons (offset : Nat) (c : Char) (rest : List Char) :
    lexFrom offset (c :: rest) =
      if isSeparator c then lexFrom (offset + 1) rest
      else if c.isDigit then
        (lexFrom (offset + 1 + (rest.takeWhile Char.isDigit).length)
          (rest.dropWhile Char.isDigit)).map
          (numeral offset (c :: rest.takeWhile Char.isDigit) :: ·)
      else if isNameStart c then
        (lexFrom (offset + 1 + (rest.takeWhile isNamePart).length) (rest.dropWhile isNamePart)).map
          (word offset (c :: rest.takeWhile isNamePart) :: ·)
      else
        match Kind.ofSign? c with
        | some kind => (lexFrom (offset + 1) rest).map (sign offset kind c :: ·)
        | none => .error (.unexpectedCharacter c offset) := by
  rw [lexFrom]

end Token

end Reckon
