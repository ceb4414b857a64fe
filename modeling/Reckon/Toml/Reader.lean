import Reckon.Text.Front
import Reckon.Toml.Table

/-!
# Reading TOML

A document is read into its lines: headers of tables and of arrays of tables, and pairs of a dotted
key and a value. How the lines make up one table is the matter of the next module. The readers give
nothing for a text that is not TOML.
-/

namespace Reckon.Toml

open Front

/-- Keys have fewer parts, and arrays and inline tables nest less deeply, than this. -/
def depthLimit : Nat := 80

/-- A value from the front of a text, with the shorter text after it. -/
structure Taken (α : Type) (cs : List Char) where
  value : α
  rest : List Char
  shorter : rest.length < cs.length

/-- What was taken off a shorter text was taken off a longer one. -/
def Taken.weaken {α β : Type} {cs ds : List Char} (t : Taken α cs) (f : α → β)
    (h : cs.length ≤ ds.length) : Taken β ds :=
  ⟨f t.value, t.rest, Nat.lt_of_lt_of_le t.shorter h⟩

/-! ## Blanks, comments and line ends -/

def isBlank (c : Char) : Bool :=
  c == ' ' || c == '\t'

/-- Characters of comments: no control characters but the tab. -/
def isVisible (c : Char) : Bool :=
  c == '\t' || (decide (0x20 ≤ c.toNat) && c.toNat != 0x7F)

def dropBlanks (cs : List Char) : List Char :=
  cs.dropWhile isBlank

/-- A text without the comment at its front. -/
def dropComment (cs : List Char) : List Char :=
  if cs.head? = some '#' then cs.dropWhile isVisible else cs

/-- The text after the line end at its front. -/
def newline? : List Char → Option (List Char)
  | '\n' :: rest => some rest
  | '\r' :: '\n' :: rest => some rest
  | _ => none

/-- The text after the rest of a line that may hold blanks and a comment only. -/
def lineEnd? (cs : List Char) : Option (List Char) :=
  match dropComment (dropBlanks cs) with
  | [] => some []
  | cs => newline? cs

theorem length_dropBlanks_le (cs : List Char) : (dropBlanks cs).length ≤ cs.length :=
  length_dropWhile_le isBlank cs

/-- What stands behind blanks and a character is shorter than the text. -/
theorem length_lt_of_dropBlanks {cs rest : List Char} {c : Char} (h : dropBlanks cs = c :: rest) :
    rest.length < cs.length :=
  length_lt_of_eq [] h (length_dropBlanks_le cs)

theorem length_dropComment_le (cs : List Char) : (dropComment cs).length ≤ cs.length := by
  unfold dropComment
  split
  · exact length_dropWhile_le isVisible cs
  · exact Nat.le_refl _

theorem length_newline?_lt {cs rest : List Char} (h : newline? cs = some rest) :
    rest.length < cs.length := by
  unfold newline? at h
  split at h
  · cases h
    exact Nat.lt_succ_self _
  · cases h
    exact Nat.lt_succ_of_lt (Nat.lt_succ_self _)
  · cases h

theorem length_lineEnd?_le {cs rest : List Char} (h : lineEnd? cs = some rest) :
    rest.length ≤ cs.length := by
  have h1 := length_dropBlanks_le cs
  have h2 := length_dropComment_le (dropBlanks cs)
  unfold lineEnd? at h
  split at h
  · cases h; simp
  · have := length_newline?_lt h
    omega

theorem length_lt_of_newline {cs rest : List Char}
    (h : newline? (dropComment (dropBlanks cs)) = some rest) : rest.length < cs.length :=
  Nat.lt_of_lt_of_le (length_newline?_lt h)
    (Nat.le_trans (length_dropComment_le (dropBlanks cs)) (length_dropBlanks_le cs))

/-- A text without the blanks, comments and line ends at its front. -/
def dropGap (cs : List Char) : List Char :=
  match _h : newline? (dropComment (dropBlanks cs)) with
  | some rest => dropGap rest
  | none => dropComment (dropBlanks cs)
termination_by cs.length
decreasing_by exact length_lt_of_newline _h

theorem length_dropGap_le (cs : List Char) : (dropGap cs).length ≤ cs.length := by
  fun_induction dropGap cs with
  | case1 cs rest h ih => exact Nat.le_trans ih (Nat.le_of_lt (length_lt_of_newline h))
  | case2 cs h =>
    exact Nat.le_trans (length_dropComment_le (dropBlanks cs)) (length_dropBlanks_le cs)

theorem length_le_of_dropGap {cs ds : List Char} (h : dropGap cs = ds) : ds.length ≤ cs.length :=
  h ▸ length_dropGap_le cs

/-- What stands behind a gap and a character is shorter than the text. -/
theorem length_lt_of_dropGap {cs rest : List Char} {c : Char} (h : dropGap cs = c :: rest) :
    rest.length < cs.length :=
  length_lt_of_eq [] h (length_dropGap_le cs)

/-! ## Strings -/

/-- A character that stands for itself in a string with escapes. -/
def isPlain (c : Char) : Bool :=
  isVisible c && c != '"' && c != '\\'

/-- A character of a string without escapes. -/
def isLiteral (c : Char) : Bool :=
  isVisible c && c != '\''

/-- The character with a code point of `count` hexadecimal digits. -/
def readHex (count : Nat) (cs : List Char) : Option Char :=
  let digits := cs.take count
  let n := Scalar.valueOf 16 digits
  if digits.length = count ∧ digits.all Scalar.isHexDigit ∧ n.isValidChar then some (Char.ofNat n)
  else none

/-- The character that a letter after a backslash stands for. -/
def escaped? : Char → Option Char
  | 'b' => some '\x08'
  | 't' => some '\t'
  | 'n' => some '\n'
  | 'f' => some '\x0c'
  | 'r' => some '\r'
  | '"' => some '"'
  | '\\' => some '\\'
  | _ => none

/-- Reads the character that an escape stands for, after the backslash. -/
def readEscape (cs : List Char) : Option (Taken Char cs) :=
  match cs with
  | [] => none
  | 'u' :: rest => (readHex 4 rest).map fun d => ⟨d, rest.drop 4, length_drop_lt_cons _ _ _⟩
  | 'U' :: rest => (readHex 8 rest).map fun d => ⟨d, rest.drop 8, length_drop_lt_cons _ _ _⟩
  | c :: rest => (escaped? c).map fun d => ⟨d, rest, length_lt_cons c rest⟩

/-- Reads a string on one line, after its opening quote. -/
def readBasic (cs : List Char) : Option (Taken (List Char) cs) :=
  match h : cs.dropWhile isPlain with
  | '"' :: rest => some ⟨cs.takeWhile isPlain, rest, length_lt_of_dropWhile h⟩
  | '\\' :: rest => do
    let c ← readEscape rest
    let more ← readBasic c.rest
    return more.weaken (fun more => cs.takeWhile isPlain ++ c.value :: more)
      (Nat.le_of_lt (Nat.lt_trans c.shorter (length_lt_of_dropWhile h)))
  | _ => none
termination_by cs.length
decreasing_by exact Nat.lt_trans c.shorter (length_lt_of_dropWhile h)

/-- Reads a string without escapes on one line, after its opening quote. -/
def readLiteral (cs : List Char) : Option (Taken (List Char) cs) :=
  match h : cs.dropWhile isLiteral with
  | '\'' :: rest =>
    some ⟨cs.takeWhile isLiteral, rest, length_lt_of_dropWhile h⟩
  | _ => none

/-- A text without the blanks and line ends at its front. -/
def dropSpace (cs : List Char) : List Char :=
  match cs with
  | ' ' :: rest | '\t' :: rest | '\n' :: rest => dropSpace rest
  | '\r' :: '\n' :: rest => dropSpace rest
  | _ => cs

theorem length_dropSpace_le (cs : List Char) : (dropSpace cs).length ≤ cs.length := by
  fun_induction dropSpace cs <;> simp_all <;> omega

/-- What stands behind a backslash at the end of a line is shorter than the text. -/
theorem length_dropSpace_lt {rest after : List Char} (c : Char)
    (h : newline? (dropBlanks rest) = some after) :
    (dropSpace after).length < (c :: rest).length :=
  Nat.lt_of_le_of_lt (length_dropSpace_le after)
    (Nat.lt_trans (Nat.lt_of_lt_of_le (length_newline?_lt h) (length_dropBlanks_le rest))
      (length_lt_cons c rest))

/-- Reads a string over several lines, after its opening quotes and the line end behind them. Up to
two quotes may stand next to the closing ones, and a backslash at the end of a line takes away the
blanks and line ends up to the next text. -/
def readLines (quote : Char) (escapes : Bool) (cs : List Char) : Option (Taken (List Char) cs) :=
  match cs with
  | [] => none
  | c :: rest =>
    if c = quote then
      let count := ((c :: rest).takeWhile (· == quote)).length
      if count < 3 then do
        let more ← readLines quote escapes rest
        return more.weaken (c :: ·) (Nat.le_of_lt (length_lt_cons c rest))
      else
        let extra := min (count - 3) 2
        some ⟨List.replicate extra quote, rest.drop (extra + 2), length_drop_lt_cons c rest _⟩
    else if escapes ∧ c = '\\' then
      match h : newline? (dropBlanks rest) with
      | some after => do
        let more ← readLines quote escapes (dropSpace after)
        return more.weaken id (Nat.le_of_lt (length_dropSpace_lt c h))
      | none => do
        let d ← readEscape rest
        let more ← readLines quote escapes d.rest
        return more.weaken (d.value :: ·)
          (Nat.le_of_lt (Nat.lt_trans d.shorter (length_lt_cons c rest)))
    else
      match h : newline? (c :: rest) with
      | some after => do
        let more ← readLines quote escapes after
        return more.weaken ('\n' :: ·) (Nat.le_of_lt (length_newline?_lt h))
      | none =>
        if isVisible c then do
          let more ← readLines quote escapes rest
          return more.weaken (c :: ·) (Nat.le_of_lt (length_lt_cons c rest))
        else none
termination_by cs.length
decreasing_by
  · exact length_lt_cons c rest
  · exact length_dropSpace_lt c h
  · exact Nat.lt_trans d.shorter (length_lt_cons c rest)
  · exact length_newline?_lt h
  · exact length_lt_cons c rest

/-- Reads a string over several lines, after its opening quotes. A line end right behind them is not
part of it. -/
def readBlock (quote : Char) (escapes : Bool) (cs : List Char) : Option (Taken String cs) :=
  match h : newline? cs with
  | some body => do
    let t ← readLines quote escapes body
    return t.weaken String.ofList (Nat.le_of_lt (length_newline?_lt h))
  | none => do
    let t ← readLines quote escapes cs
    return t.weaken String.ofList (Nat.le_refl _)

/-- Reads a string of any of the four forms. -/
def readString (cs : List Char) : Option (Taken String cs) :=
  match cs with
  | '"' :: '"' :: '"' :: body => do
    return (← readBlock '"' true body).weaken id
      (Nat.le_of_lt (length_lt_of_eq ['"', '"'] rfl (Nat.le_refl _)))
  | '\'' :: '\'' :: '\'' :: body => do
    return (← readBlock '\'' false body).weaken id
      (Nat.le_of_lt (length_lt_of_eq ['\'', '\''] rfl (Nat.le_refl _)))
  | '"' :: body => do
    return (← readBasic body).weaken String.ofList (Nat.le_of_lt (length_lt_cons '"' body))
  | '\'' :: body => do
    return (← readLiteral body).weaken String.ofList (Nat.le_of_lt (length_lt_cons '\'' body))
  | _ => none

/-! ## Keys -/

def isBare (c : Char) : Bool :=
  c.isAlphanum || c == '_' || c == '-'

/-- Reads one part of a key. -/
def readPart (cs : List Char) : Option (Taken String cs) :=
  match cs with
  | '"' :: body => do
    return (← readBasic body).weaken String.ofList (Nat.le_of_lt (length_lt_cons '"' body))
  | '\'' :: body => do
    return (← readLiteral body).weaken String.ofList (Nat.le_of_lt (length_lt_cons '\'' body))
  | c :: rest =>
    if isBare c then
      some ⟨String.ofList (c :: rest.takeWhile isBare), rest.dropWhile isBare,
        length_dropWhile_lt_cons isBare c rest⟩
    else none
  | [] => none

/-- What stands behind a part of a key, with blanks around it, is shorter than the text. -/
theorem length_after_part_lt {α : Type} {cs ds : List Char} (part : Taken α (dropBlanks cs))
    (h : dropBlanks part.rest = ds) : ds.length < cs.length :=
  Nat.lt_of_le_of_lt (h ▸ length_dropBlanks_le part.rest)
    (Nat.lt_of_lt_of_le part.shorter (length_dropBlanks_le cs))

/-- Reads a dotted key with blanks around its parts. -/
def readPath (cs : List Char) : Option (Taken Path cs) := do
  let part ← readPart (dropBlanks cs)
  match h : dropBlanks part.rest with
  | '.' :: rest =>
    let more ← readPath rest
    return more.weaken (part.value :: ·)
      (Nat.le_of_lt (Nat.lt_trans (length_lt_cons '.' rest) (length_after_part_lt part h)))
  | rest => return ⟨[part.value], rest, length_after_part_lt part h⟩
termination_by cs.length
decreasing_by exact Nat.lt_trans (length_lt_cons '.' rest) (length_after_part_lt part h)

/-- Reads a key whose number of parts is within the limit. -/
def readKey (cs : List Char) : Option (Taken Path cs) := do
  let key ← readPath cs
  if key.value.length < depthLimit then some key else none

/-! ## Values -/

/-- Reads a plain scalar. -/
def readWord (cs : List Char) : Option (Taken Value cs) :=
  match cs with
  | [] => none
  | c :: rest =>
    if Scalar.isWordChar c then
      (Scalar.ofWord? (c :: rest.takeWhile Scalar.isWordChar)).map fun value =>
        ⟨value, rest.dropWhile Scalar.isWordChar,
          length_dropWhile_lt_cons Scalar.isWordChar c rest⟩
    else none

/-- What stands behind a word, a blank and a second word is shorter than the text. -/
theorem length_after_words_lt {cs rest : List Char} {c d : Char}
    (h : cs.dropWhile Scalar.isWordChar = c :: d :: rest) :
    (rest.dropWhile Scalar.isWordChar).length < cs.length :=
  Nat.lt_of_le_of_lt (length_dropWhile_le Scalar.isWordChar rest)
    (length_lt_of_eq [d] h (length_dropWhile_le Scalar.isWordChar cs))

/-- Reads a scalar without quotes or brackets. After a date, one blank and a digit lead in the time
that belongs to it. -/
def readScalar (cs : List Char) : Option (Taken Value cs) :=
  match h : cs.dropWhile Scalar.isWordChar with
  | ' ' :: c :: rest =>
    let date := cs.takeWhile Scalar.isWordChar
    if Scalar.isDate date && c.isDigit then
      let time := c :: rest.takeWhile Scalar.isWordChar
      if Scalar.isOffsetTime time then
        some ⟨.dateTime (String.ofList (date ++ ' ' :: time)), rest.dropWhile Scalar.isWordChar,
          length_after_words_lt h⟩
      else none
    else readWord cs
  | _ => readWord cs

/-- What stands behind an item and the character after it is shorter than the text. -/
theorem length_after_item_lt {α : Type} {cs ds after : List Char} {c : Char}
    (h : dropGap cs = ds) (item : Taken α ds) (hafter : dropGap item.rest = c :: after) :
    after.length < cs.length :=
  Nat.lt_of_lt_of_le (Nat.lt_trans (length_lt_of_dropGap hafter) item.shorter)
    (length_le_of_dropGap h)

/-- What stands behind a key, an equals sign and blanks is shorter than the text. -/
theorem length_dropBlanks_lt {α : Type} {cs body : List Char} {c : Char} (key : Taken α cs)
    (h : key.rest = c :: body) : (dropBlanks body).length < cs.length :=
  Nat.lt_of_le_of_lt (length_dropBlanks_le body)
    (Nat.lt_trans (length_lt_of_eq [] h (Nat.le_refl _)) key.shorter)

/-- What stands behind a pair and the character after it is shorter than the text. -/
theorem length_after_pair_lt {α β : Type} {cs body after : List Char} {c d : Char}
    (key : Taken α cs) (h : key.rest = c :: body) (value : Taken β (dropBlanks body))
    (hafter : dropBlanks value.rest = d :: after) : after.length < cs.length :=
  Nat.lt_trans (Nat.lt_trans (length_lt_of_dropBlanks hafter) value.shorter)
    (length_dropBlanks_lt key h)

mutual

/-- Reads a value, with room for a number of nested arrays and inline tables. -/
def readValue (room : Nat) (cs : List Char) : Option (Taken Value cs) :=
  match cs with
  | '"' :: rest => do return (← readString ('"' :: rest)).weaken .string (Nat.le_refl _)
  | '\'' :: rest => do return (← readString ('\'' :: rest)).weaken .string (Nat.le_refl _)
  | '[' :: rest =>
    match room with
    | 0 => none
    | room + 1 => do
      return (← readItems room rest).weaken .array (Nat.le_of_lt (length_lt_cons '[' rest))
  | '\x7b' :: rest =>
    match room with
    | 0 => none
    | room + 1 =>
      match h : dropBlanks rest with
      | '\x7d' :: after =>
        some ⟨.table [], after,
          Nat.lt_trans (length_lt_of_dropBlanks h) (length_lt_cons '\x7b' rest)⟩
      | _ => do
        return (← readPairs room .header [] rest).weaken (fun cs => .table (entryValues cs))
          (Nat.le_of_lt (length_lt_cons '\x7b' rest))
  | cs => readScalar cs
termination_by (cs.length, 0)
decreasing_by
  · exact lex_of_lt (length_lt_cons '[' rest)
  · exact lex_of_lt (length_lt_cons '\x7b' rest)

/-- Reads the items of an array up to its end, after the opening bracket or a comma. -/
def readItems (room : Nat) (cs : List Char) : Option (Taken (List Value) cs) :=
  match h : dropGap cs with
  | [] => none
  | ']' :: rest => some ⟨[], rest, length_lt_of_dropGap h⟩
  | c :: rest => do
    let item ← readValue room (c :: rest)
    match hafter : dropGap item.rest with
    | ']' :: after => return ⟨[item.value], after, length_after_item_lt h item hafter⟩
    | ',' :: after =>
      let more ← readItems room after
      return more.weaken (item.value :: ·) (Nat.le_of_lt (length_after_item_lt h item hafter))
    | _ => none
termination_by (cs.length, 1)
decreasing_by
  · exact lex_of_le (length_le_of_dropGap h)
  · exact lex_of_lt (length_after_item_lt h item hafter)

/-- Reads the pairs of an inline table up to its end, after the opening brace or a comma. -/
def readPairs (room : Nat) (origin : Origin) (children : Children) (cs : List Char) :
    Option (Taken Children cs) := do
  let key ← readKey cs
  match hkey : key.rest with
  | '=' :: body =>
    let value ← readValue room (dropBlanks body)
    let (origin, children) ← addValue key.value value.value origin children
    match hafter : dropBlanks value.rest with
    | '\x7d' :: after =>
      return ⟨children, after, length_after_pair_lt key hkey value hafter⟩
    | ',' :: after =>
      let more ← readPairs room origin children after
      return more.weaken id (Nat.le_of_lt (length_after_pair_lt key hkey value hafter))
    | _ => none
  | _ => none
termination_by (cs.length, 1)
decreasing_by
  · exact lex_of_lt (length_dropBlanks_lt key hkey)
  · exact lex_of_lt (length_after_pair_lt key hkey value hafter)

end

/-! ## Lines -/

/-- A line of a document that is not blank. -/
inductive Line where
  | table (path : Path)
  | tables (path : Path)
  | pair (path : Path) (value : Value)

/-- What stands behind a line is shorter than the text, if the line holds more than its end. -/
theorem length_after_line_lt {cs after next : List Char} (h : lineEnd? after = some next)
    (hlt : after.length < cs.length) : next.length < cs.length :=
  Nat.lt_of_le_of_lt (length_lineEnd?_le h) hlt

/-- What stands behind a header's key and `front` is shorter than the text. -/
theorem length_after_key_lt {α : Type} {cs ds after : List Char} {c : Char} (front : List Char)
    (key : Taken α ds) (h : key.rest = c :: (front ++ after)) (hle : ds.length ≤ cs.length) :
    after.length < cs.length :=
  Nat.lt_of_lt_of_le (Nat.lt_trans (length_lt_of_eq front h (Nat.le_refl _)) key.shorter) hle

/-- Ends a line: nothing but blanks and a comment may follow. -/
def endLine {cs after : List Char} (line : Line) (hlt : after.length < cs.length) :
    Option (Taken Line cs) :=
  match h : lineEnd? after with
  | some next => some ⟨line, next, length_after_line_lt h hlt⟩
  | none => none

/-- Reads a line, up to and with its end. -/
def readLine (cs : List Char) : Option (Taken Line cs) :=
  match cs with
  | '[' :: '[' :: rest => do
    let key ← readKey rest
    match h : key.rest with
    | ']' :: ']' :: _ =>
      endLine (.tables key.value)
        (length_after_key_lt [']'] key h
          (Nat.le_of_lt (length_lt_of_eq ['['] rfl (Nat.le_refl _))))
    | _ => none
  | '[' :: rest => do
    let key ← readKey rest
    match h : key.rest with
    | ']' :: _ =>
      endLine (.table key.value)
        (length_after_key_lt [] key h (Nat.le_of_lt (length_lt_cons '[' rest)))
    | _ => none
  | cs => do
    let key ← readKey cs
    match h : key.rest with
    | '=' :: body =>
      let value ← readValue (depthLimit - 1) (dropBlanks body)
      endLine (.pair key.value value.value)
        (Nat.lt_trans value.shorter (length_dropBlanks_lt key h))
    | _ => none

/-- Reads the lines of a document. -/
def readDocument (cs : List Char) : Option (List Line) :=
  match _h : dropGap cs with
  | [] => some []
  | c :: rest => do
    let line ← readLine (c :: rest)
    let more ← readDocument line.rest
    return line.value :: more
termination_by cs.length
decreasing_by exact Nat.lt_of_lt_of_le line.shorter (length_le_of_dropGap _h)

end Reckon.Toml
