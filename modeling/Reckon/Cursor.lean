import Reckon.Token

/-!
# A place in a list of tokens

A `Cursor` holds the tokens still to be read and the token read last. The language never reads past
the end mark, so a well-formed list always offers a token to look at. On a list without an end mark
the last token stays in sight for ever, and an empty list looks like a lone end mark.

* `current_cons`, `advance_cons`: inside the list the cursor shows the next token and moves past it.
-/

namespace Reckon

structure Cursor where
  /-- The token read last, if any. -/
  previous? : Option Token
  /-- The tokens still to be read. -/
  rest : List Token
  deriving DecidableEq, Repr

namespace Cursor

/-- The place before the first token. -/
def start (tokens : List Token) : Cursor :=
  ⟨none, tokens⟩

/-- The token in sight. -/
def current (c : Cursor) : Token :=
  match c.rest with
  | t :: _ => t
  | [] => c.previous?.getD (Token.endAt 0)

/-- The place after the token in sight, or the same place at the end of the list. -/
def advance (c : Cursor) : Cursor :=
  match c.rest with
  | t :: ts => ⟨some t, ts⟩
  | [] => c

/-- The kind of the token in sight. -/
def kind (c : Cursor) : Token.Kind :=
  c.current.kind

/-- Where the token read last stands. -/
def previousSpan (c : Cursor) : Span :=
  match c.previous? with
  | some t => t.span
  | none => .point 0

@[simp] theorem current_cons (p : Option Token) (t : Token) (ts : List Token) :
    current ⟨p, t :: ts⟩ = t :=
  rfl

@[simp] theorem advance_cons (p : Option Token) (t : Token) (ts : List Token) :
    advance ⟨p, t :: ts⟩ = ⟨some t, ts⟩ :=
  rfl

end Cursor

end Reckon
