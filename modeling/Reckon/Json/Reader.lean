import Reckon.Json.Number
import Reckon.Text.Front

/-!
# Reading JSON

`Json.parse` reads one value with blanks around it. Positions count bytes: an error that concerns a
character in sight counts the first byte of that character too. Members of an object are put into
the order of their names, and of two members with one name the later stays. At most `maxDepth`
arrays and objects nest.
-/

namespace Reckon.Json

open Front

/-- The number of arrays and objects that may nest. -/
def maxDepth : Nat := 127

/-- A value from the front of a text, with the bytes up to its end and the shorter text after it. -/
structure Read (α : Type) (cs : List Char) where
  value : α
  offset : Nat
  rest : List Char
  shorter : rest.length < cs.length

/-- What was read off a shorter text was read off a longer one. -/
def Read.weaken {α β : Type} {cs ds : List Char} (r : Read α cs) (f : α → β)
    (h : cs.length ≤ ds.length) : Read β ds :=
  ⟨f r.value, r.offset, r.rest, Nat.lt_of_lt_of_le r.shorter h⟩

/-! ## Blanks -/

def isBlank (c : Char) : Bool :=
  c == ' ' || c == '\n' || c == '\t' || c == '\r'

/-- The offset after the blanks at the front of a text. -/
def blanksEnd (offset : Nat) (cs : List Char) : Nat :=
  offset + (cs.takeWhile isBlank).length

/-- A text without the blanks at its front. -/
def dropBlanks (cs : List Char) : List Char :=
  cs.dropWhile isBlank

theorem length_le_of_dropBlanks {cs ds : List Char} (h : dropBlanks cs = ds) :
    ds.length ≤ cs.length :=
  h ▸ length_dropWhile_le isBlank cs

/-- What stands behind blanks, a character and `front` is shorter than the text. -/
theorem length_lt_of_dropBlanks {cs rest : List Char} {c : Char} (front : List Char)
    (h : dropBlanks cs = c :: (front ++ rest)) : rest.length < cs.length :=
  length_lt_of_eq front h (length_dropWhile_le isBlank cs)

/-! ## Strings -/

/-- A character that stands for itself in a string. -/
def isPlain (c : Char) : Bool :=
  c != '"' && c != '\\' && decide (0x20 ≤ c.toNat)

/-- The number of bytes of a text. -/
def byteLength (cs : List Char) : Nat :=
  cs.foldl (fun n c => n + c.utf8Size) 0

def hexValue? (c : Char) : Option Nat :=
  if c.isDigit then some (c.toNat - '0'.toNat)
  else if 'a' ≤ c ∧ c ≤ 'f' then some (c.toNat - 'a'.toNat + 10)
  else if 'A' ≤ c ∧ c ≤ 'F' then some (c.toNat - 'A'.toNat + 10)
  else none

/-- Reads four hexadecimal digits. Four bytes have to be there, and four digits in them. -/
def readHex (offset : Nat) (cs : List Char) : Except Fault (Read Nat cs) :=
  if byteLength (cs.take 4) < 4 then .error ⟨.endOfString, offset + byteLength (cs.take 4)⟩
  else
    match cs with
    | a :: b :: c :: d :: rest =>
      match hexValue? a, hexValue? b, hexValue? c, hexValue? d with
      | some a, some b, some c, some d =>
        .ok ⟨((a * 16 + b) * 16 + c) * 16 + d, offset + 4, rest,
          length_lt_of_eq [_, _, _] rfl (Nat.le_refl _)⟩
      | _, _, _, _ => .error ⟨.invalidEscape, offset + 4⟩
    | _ => .error ⟨.invalidEscape, offset + 4⟩

def isLeadingSurrogate (n : Nat) : Bool :=
  decide (0xD800 ≤ n) && decide (n ≤ 0xDBFF)

def isTrailingSurrogate (n : Nat) : Bool :=
  decide (0xDC00 ≤ n) && decide (n ≤ 0xDFFF)

/-- Reads the trailing surrogate that has to follow a leading one. -/
def readTrailing (offset leading : Nat) (cs : List Char) : Except Fault (Read Char cs) :=
  match cs with
  | [] => .error ⟨.endOfString, offset⟩
  | '\\' :: [] => .error ⟨.endOfString, offset + 1⟩
  | '\\' :: 'u' :: rest => do
    let r ← readHex (offset + 2) rest
    if isTrailingSurrogate r.value then
      let n := 0x10000 + (leading - 0xD800) * 0x400 + (r.value - 0xDC00)
      return r.weaken (fun _ => Char.ofNat n)
        (Nat.le_of_lt (length_lt_of_eq ['u'] rfl (Nat.le_refl _)))
    else .error ⟨.loneSurrogate, r.offset⟩
  | '\\' :: _ => .error ⟨.endOfHexEscape, offset + 2⟩
  | _ => .error ⟨.endOfHexEscape, offset + 1⟩

/-- The character that a sign after a backslash stands for. -/
def escaped? : Char → Option Char
  | '"' => some '"'
  | '\\' => some '\\'
  | '/' => some '/'
  | 'b' => some '\x08'
  | 'f' => some '\x0c'
  | 'n' => some '\n'
  | 'r' => some '\r'
  | 't' => some '\t'
  | _ => none

/-- Reads the character that an escape stands for, after the backslash. -/
def readEscape (offset : Nat) (cs : List Char) : Except Fault (Read Char cs) :=
  match cs with
  | [] => .error ⟨.endOfString, offset⟩
  | c :: rest =>
    match escaped? c with
    | some d => .ok ⟨d, offset + 1, rest, length_lt_cons c rest⟩
    | none =>
      if c = 'u' then do
        let r ← readHex (offset + 1) rest
        if isTrailingSurrogate r.value then .error ⟨.loneSurrogate, r.offset⟩
        else if isLeadingSurrogate r.value then
          let t ← readTrailing r.offset r.value r.rest
          return t.weaken id (Nat.le_of_lt (Nat.lt_trans r.shorter (length_lt_cons c rest)))
        else return r.weaken (fun n => Char.ofNat n) (Nat.le_of_lt (length_lt_cons c rest))
      else .error ⟨.invalidEscape, offset + 1⟩

/-- Reads a string after its opening quote. -/
def readString (offset : Nat) (cs : List Char) : Except Fault (Read (List Char) cs) :=
  let plain := cs.takeWhile isPlain
  let offset := offset + byteLength plain
  match h : cs.dropWhile isPlain with
  | [] => .error ⟨.endOfString, offset⟩
  | '"' :: rest => .ok ⟨plain, offset + 1, rest, length_lt_of_dropWhile h⟩
  | '\\' :: rest => do
    let c ← readEscape (offset + 1) rest
    let r ← readString c.offset c.rest
    return r.weaken (fun more => plain ++ c.value :: more)
      (Nat.le_of_lt (Nat.lt_trans c.shorter (length_lt_of_dropWhile h)))
  | _ => .error ⟨.controlCharacter, offset + 1⟩
termination_by cs.length
decreasing_by exact Nat.lt_trans c.shorter (length_lt_of_dropWhile h)

/-! ## Values -/

/-- The fault of a text that starts like a literal and does not go on like it. -/
def literalFault (offset : Nat) : List Char → List Char → Fault
  | e :: expected, c :: cs =>
    if c = e then literalFault (offset + 1) expected cs else ⟨.expectedLiteral, offset + 1⟩
  | _, _ => ⟨.endOfValue, offset⟩

/-- Reads a number after its sign. -/
def readNumber (negative : Bool) (offset : Nat) (cs : List Char) : Except Fault (Read Json cs) :=
  match cs with
  | [] => .error ⟨.endOfValue, offset⟩
  | c :: rest => do
    let (numeral, count) ← Numeral.scan negative offset (c :: rest)
    let j ← numeral.value (offset + count)
    return ⟨j, offset + count, rest.drop (count - 1), length_drop_lt_cons c rest (count - 1)⟩

/-- What stands behind an item and the character after it is shorter than the text. -/
theorem length_after_item_lt {α : Type} {cs ds after : List Char} {c : Char}
    (h : dropBlanks cs = ds) (item : Read α ds) (hafter : dropBlanks item.rest = c :: after) :
    after.length < cs.length :=
  Nat.lt_of_lt_of_le (Nat.lt_trans (length_lt_of_dropBlanks [] hafter) item.shorter)
    (length_le_of_dropBlanks h)

/-- What stands behind a name and the colon after it is shorter than the text. -/
theorem length_after_name_lt {α : Type} {cs rest body : List Char} {c d : Char}
    (h : dropBlanks cs = c :: rest) (name : Read α rest)
    (hcolon : dropBlanks name.rest = d :: body) : body.length < cs.length :=
  Nat.lt_trans (Nat.lt_trans (length_lt_of_dropBlanks [] hcolon) name.shorter)
    (length_lt_of_dropBlanks [] h)

/-- What stands behind a member and the character after it is shorter than the text. -/
theorem length_after_value_lt {α β : Type} {cs rest body after : List Char} {c d e : Char}
    (h : dropBlanks cs = c :: rest) (name : Read α rest) (hcolon : dropBlanks name.rest = d :: body)
    (value : Read β body) (hafter : dropBlanks value.rest = e :: after) :
    after.length < cs.length :=
  Nat.lt_trans (Nat.lt_trans (length_lt_of_dropBlanks [] hafter) value.shorter)
    (length_after_name_lt h name hcolon)

mutual

/-- Reads a value with blanks before it, with room for a number of nested arrays and objects. -/
def readValue (room offset : Nat) (cs : List Char) : Except Fault (Read Json cs) :=
  let offset := blanksEnd offset cs
  match h : dropBlanks cs with
  | [] => .error ⟨.endOfValue, offset⟩
  | 'n' :: 'u' :: 'l' :: 'l' :: rest =>
    .ok ⟨.null, offset + 4, rest, length_lt_of_dropBlanks ['u', 'l', 'l'] h⟩
  | 't' :: 'r' :: 'u' :: 'e' :: rest =>
    .ok ⟨.bool true, offset + 4, rest, length_lt_of_dropBlanks ['r', 'u', 'e'] h⟩
  | 'f' :: 'a' :: 'l' :: 's' :: 'e' :: rest =>
    .ok ⟨.bool false, offset + 5, rest, length_lt_of_dropBlanks ['a', 'l', 's', 'e'] h⟩
  | 'n' :: rest => .error (literalFault (offset + 1) ['u', 'l', 'l'] rest)
  | 't' :: rest => .error (literalFault (offset + 1) ['r', 'u', 'e'] rest)
  | 'f' :: rest => .error (literalFault (offset + 1) ['a', 'l', 's', 'e'] rest)
  | '"' :: rest => do
    let r ← readString (offset + 1) rest
    return r.weaken (fun s => .string (String.ofList s))
      (Nat.le_of_lt (length_lt_of_dropBlanks [] h))
  | '-' :: rest => do
    let r ← readNumber true (offset + 1) rest
    return r.weaken id (Nat.le_of_lt (length_lt_of_dropBlanks [] h))
  | '[' :: rest =>
    match room with
    | 0 => .error ⟨.nestingTooDeep, offset + 1⟩
    | room + 1 => do
      let r ← readItems room true (offset + 1) rest
      return r.weaken .array (Nat.le_of_lt (length_lt_of_dropBlanks [] h))
  | '\x7b' :: rest =>
    match room with
    | 0 => .error ⟨.nestingTooDeep, offset + 1⟩
    | room + 1 => do
      let r ← readMembers room true [] (offset + 1) rest
      return r.weaken .object (Nat.le_of_lt (length_lt_of_dropBlanks [] h))
  | c :: rest =>
    if c.isDigit then do
      let r ← readNumber false offset (c :: rest)
      return r.weaken id (length_le_of_dropBlanks h)
    else .error ⟨.expectedValue, offset + 1⟩
termination_by (cs.length, 0)
decreasing_by all_goals exact lex_of_lt (length_lt_of_dropBlanks [] h)

/-- Reads the items of an array up to its end, after the opening bracket or a comma. -/
def readItems (room : Nat) (first : Bool) (offset : Nat) (cs : List Char) :
    Except Fault (Read (List Json) cs) :=
  let offset := blanksEnd offset cs
  match h : dropBlanks cs with
  | [] => .error ⟨if first then .endOfList else .endOfValue, offset⟩
  | ']' :: rest =>
    if first then .ok ⟨[], offset + 1, rest, length_lt_of_dropBlanks [] h⟩
    else .error ⟨.trailingComma, offset + 1⟩
  | c :: rest => do
    let item ← readValue room offset (c :: rest)
    let offset := blanksEnd item.offset item.rest
    match hafter : dropBlanks item.rest with
    | [] => .error ⟨.endOfList, offset⟩
    | ']' :: after =>
      return ⟨[item.value], offset + 1, after, length_after_item_lt h item hafter⟩
    | ',' :: after => do
      let more ← readItems room false (offset + 1) after
      return more.weaken (item.value :: ·) (Nat.le_of_lt (length_after_item_lt h item hafter))
    | _ => .error ⟨.expectedListCommaOrEnd, offset + 1⟩
termination_by (cs.length, 1)
decreasing_by
  · exact lex_of_le (length_le_of_dropBlanks h)
  · exact lex_of_lt (length_after_item_lt h item hafter)

/-- Reads the members of an object up to its end, after the opening brace or a comma. Members are
put in their place among those read before. -/
def readMembers (room : Nat) (first : Bool) (members : Entries Json) (offset : Nat)
    (cs : List Char) : Except Fault (Read (Entries Json) cs) :=
  let offset := blanksEnd offset cs
  match h : dropBlanks cs with
  | [] => .error ⟨if first then .endOfObject else .endOfValue, offset⟩
  | '\x7d' :: rest =>
    if first then .ok ⟨members, offset + 1, rest, length_lt_of_dropBlanks [] h⟩
    else .error ⟨.trailingComma, offset + 1⟩
  | '"' :: rest => do
    let name ← readString (offset + 1) rest
    let offset := blanksEnd name.offset name.rest
    match hcolon : dropBlanks name.rest with
    | [] => .error ⟨.endOfObject, offset⟩
    | ':' :: body => do
      let value ← readValue room (offset + 1) body
      let members := members.insert (String.ofList name.value) value.value
      let offset := blanksEnd value.offset value.rest
      match hafter : dropBlanks value.rest with
      | [] => .error ⟨.endOfObject, offset⟩
      | '\x7d' :: after =>
        return ⟨members, offset + 1, after, length_after_value_lt h name hcolon value hafter⟩
      | ',' :: after => do
        let more ← readMembers room false members (offset + 1) after
        return more.weaken id
          (Nat.le_of_lt (length_after_value_lt h name hcolon value hafter))
      | _ => .error ⟨.expectedObjectCommaOrEnd, offset + 1⟩
    | _ => .error ⟨.expectedColon, offset + 1⟩
  | _ => .error ⟨.keyMustBeString, offset + 1⟩
termination_by (cs.length, 1)
decreasing_by
  · exact lex_of_lt (length_after_name_lt h name hcolon)
  · exact lex_of_lt (length_after_value_lt h name hcolon value hafter)

end

/-! ## Texts -/

/-- Why and where a text is not JSON. -/
structure SyntaxError where
  cause : Cause
  /-- The line, counted from one. -/
  line : Nat
  /-- The bytes of that line up to the error. -/
  column : Nat
  deriving DecidableEq, Repr

/-- The line and column after a number of bytes, going on from a line and column. -/
def locate (line column offset : Nat) : List Char → Nat × Nat
  | [] => (line, column)
  | c :: cs =>
    if offset = 0 then (line, column)
    else if c = '\n' then locate (line + 1) 0 (offset - 1) cs
    else locate line (column + min offset c.utf8Size) (offset - c.utf8Size) cs

def Cause.message : Cause → String
  | endOfValue => "EOF while parsing a value"
  | endOfList => "EOF while parsing a list"
  | endOfObject => "EOF while parsing an object"
  | endOfString => "EOF while parsing a string"
  | expectedValue => "expected value"
  | expectedLiteral => "expected ident"
  | expectedColon => "expected `:`"
  | expectedListCommaOrEnd => "expected `,` or `]`"
  | expectedObjectCommaOrEnd => "expected `,` or `\x7d`"
  | keyMustBeString => "key must be a string"
  | trailingComma => "trailing comma"
  | trailingCharacters => "trailing characters"
  | invalidNumber => "invalid number"
  | numberOutOfRange => "number out of range"
  | invalidEscape => "invalid escape"
  | endOfHexEscape => "unexpected end of hex escape"
  | loneSurrogate => "lone leading surrogate in hex escape"
  | controlCharacter => "control character (\\u0000-\\u001F) found while parsing a string"
  | nestingTooDeep => "recursion limit exceeded"

def SyntaxError.message (e : SyntaxError) : String :=
  e.cause.message ++ " at line " ++ Decimal.natText e.line ++ " column " ++
    Decimal.natText e.column

/-- Reads the one value of a text. -/
def readText (cs : List Char) : Except Fault Json := do
  let r ← readValue maxDepth 0 cs
  match dropBlanks r.rest with
  | [] => return r.value
  | _ => .error ⟨.trailingCharacters, blanksEnd r.offset r.rest + 1⟩

/-- The JSON value that a text spells. -/
def parse (s : String) : Except SyntaxError Json :=
  (readText s.toList).mapError fun fault =>
    let (line, column) := locate 1 0 fault.offset s.toList
    ⟨fault.cause, line, column⟩

end Reckon.Json
