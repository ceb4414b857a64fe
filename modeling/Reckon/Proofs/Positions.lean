import Reckon.Failure
import Reckon.Proofs.Reader

/-!
# The grammar does not look at positions

A map of positions moves the places of tokens, cursors and errors. Reading commutes with it, if it
leaves the position 0 alone, at which an empty list of tokens ends: the same statement is read, or
the same error is found at its moved place. The map to 0 forgets all positions, so lists of tokens
that differ in nothing else are read alike.

* `Parse.operand_chain_move`, `Parse.assignment_move`, `Parse.statement_move`: each reader.
* `Stmt.ofTokens_move`: the reading of a list.
* `Stmt.ofTokens_unplaced`: lists of tokens that differ in their positions only.
-/

namespace Reckon

/-! ## Moving -/

def Span.move (f : Nat → Nat) (s : Span) : Span :=
  ⟨f s.start, f s.stop⟩

/-- The token at its moved place. -/
def Token.move (f : Nat → Nat) (t : Token) : Token :=
  { t with span := t.span.move f }

/-- The error at its moved place. -/
def ParseError.move (f : Nat → Nat) : ParseError → ParseError
  | unexpectedToken expected found span => unexpectedToken expected found (span.move f)
  | unexpectedEnd expected span => unexpectedEnd expected (span.move f)
  | invalidTarget span => invalidTarget (span.move f)
  | trailingTokens found span => trailingTokens found (span.move f)
  | nestingTooDeep limit span => nestingTooDeep limit (span.move f)

/-- The same place in a list of moved tokens. -/
def Cursor.move (f : Nat → Nat) (c : Cursor) : Cursor :=
  ⟨c.previous?.map (Token.move f), c.rest.map (Token.move f)⟩

def Halt.move (f : Nat → Nat) (halt : Halt) : Halt :=
  ⟨halt.error.move f, halt.place.move f⟩

@[simp] theorem Token.kind_move (f : Nat → Nat) (t : Token) : (t.move f).kind = t.kind :=
  rfl

@[simp] theorem ParseError.message_move (f : Nat → Nat) (err : ParseError) :
    (err.move f).message = err.message := by
  cases err <;> rfl

@[simp] theorem ParseError.code_move (f : Nat → Nat) (err : ParseError) :
    (err.move f).code = err.code := by
  cases err <;> rfl

namespace Cursor

variable {f : Nat → Nat}

theorem advance_move (c : Cursor) : (c.move f).advance = c.advance.move f := by
  obtain ⟨p, ts⟩ := c
  cases ts <;> rfl

variable (hf : f 0 = 0)

include hf

theorem current_move (c : Cursor) : (c.move f).current = c.current.move f := by
  obtain ⟨p, ts⟩ := c
  cases ts with
  | cons t ts => rfl
  | nil =>
    cases p with
    | some t => rfl
    | none => simp [current, move, Token.move, Token.endAt, Span.move, Span.point, hf]

theorem kind_move (c : Cursor) : (c.move f).kind = c.kind := by
  simp [kind, current_move hf]

theorem previousSpan_move (c : Cursor) : (c.move f).previousSpan = c.previousSpan.move f := by
  obtain ⟨p, ts⟩ := c
  cases p with
  | some t => rfl
  | none => simp [previousSpan, move, Span.move, Span.point, hf]

theorem unexpected_move (c : Cursor) (expected : Expected) :
    (c.move f).unexpected expected = (c.unexpected expected).move f := by
  simp only [unexpected, kind_move hf, current_move hf]
  split <;> rfl

theorem tooDeep_move (c : Cursor) : (c.move f).tooDeep = c.tooDeep.move f := by
  simp only [tooDeep, current_move hf]
  rfl

end Cursor

/-! ## Readers -/

namespace Parse

/-- What a reader gives, at its moved place. -/
def moved {α : Type} (f : Nat → Nat) : Except Halt (α × Cursor) → Except Halt (α × Cursor)
  | .ok (a, c) => .ok (a, c.move f)
  | .error halt => .error (halt.move f)

variable {f : Nat → Nat} {α β : Type}

theorem moved_bind {g : α × Cursor → Except Halt (β × Cursor)}
    (hg : ∀ a c, g (a, c.move f) = moved f (g (a, c))) (x : Except Halt (α × Cursor)) :
    (moved f x).bind g = moved f (x.bind g) := by
  cases x with
  | error halt => rfl
  | ok r => exact hg r.1 r.2

theorem moved_map (g : α → β) (x : Except Halt (α × Cursor)) :
    (moved f x).map (fun r => (g r.1, r.2)) = moved f (x.map fun r => (g r.1, r.2)) := by
  cases x <;> rfl

theorem expression_move_of {room : Nat}
    (hop : ∀ c, operand room (c.move f) = moved f (operand room c))
    (hch : ∀ least left c,
      chain room least left (c.move f) = moved f (chain room least left c))
    (least : Nat) (c : Cursor) :
    expression room least (c.move f) = moved f (expression room least c) := by
  have hbind : ∀ d, expression room least d =
      (operand room d).bind fun r => chain room least r.1 r.2 := fun _ => rfl
  rw [hbind, hbind, hop]
  exact moved_bind (fun first c' => hch least first c') _

variable (hf : f 0 = 0)

include hf

/-- A result in front of a closing token. -/
theorem moved_expect (a : α) (c : Cursor) (k : Token.Kind) :
    ((c.move f).expect k).map (fun c' => (a, c')) =
      moved f ((c.expect k).map fun c' => (a, c')) := by
  by_cases hk : c.kind = k
  · rw [Cursor.expect_of_kind hk, Cursor.expect_of_kind ((Cursor.kind_move hf c).trans hk),
      Cursor.advance_move]
    rfl
  · rw [Cursor.expect_of_kind_ne hk,
      Cursor.expect_of_kind_ne (fun h => hk ((Cursor.kind_move hf c).symm.trans h)),
      Cursor.unexpected_move hf]
    rfl

/-- An operand of one token, or none. -/
theorem operand_move_of_not_opens {c : Cursor} (h : ¬ c.kind.Opens) (room : Nat) :
    operand room (c.move f) = moved f (operand room c) := by
  have hkind := Cursor.kind_move hf c
  rcases c.kind.operand_cases with hk | hk | hk | hk | ⟨hu, hn, hi, hl⟩
  · exact absurd (.inr hk) h
  · rw [operand_number hk, operand_number (hkind ▸ hk), Cursor.advance_move,
      Cursor.current_move hf]
    rfl
  · rw [operand_identifier hk, operand_identifier (hkind ▸ hk), Cursor.advance_move,
      Cursor.current_move hf]
    rfl
  · exact absurd (.inl hk) h
  · rw [operand_missing hu hn hi hl, operand_missing (hkind ▸ hu) (hkind ▸ hn) (hkind ▸ hi)
      (hkind ▸ hl), Cursor.unexpected_move hf]
    rfl

theorem operand_move_zero (c : Cursor) : operand 0 (c.move f) = moved f (operand 0 c) := by
  by_cases hk : c.kind.Opens
  · rw [operand_opens hk, operand_opens (Cursor.kind_move hf c ▸ hk), Cursor.tooDeep_move hf]
    rfl
  · exact operand_move_of_not_opens hf hk 0

theorem operand_move_succ {room : Nat}
    (hop : ∀ c, operand room (c.move f) = moved f (operand room c))
    (hex : ∀ least c, expression room least (c.move f) = moved f (expression room least c))
    (c : Cursor) : operand (room + 1) (c.move f) = moved f (operand (room + 1) c) := by
  have hkind := Cursor.kind_move hf c
  by_cases hopens : c.kind.Opens
  · rcases hopens with hk | ⟨op, hk⟩
    · rw [operand_group hk, operand_group (hkind ▸ hk), Cursor.advance_move, hex]
      exact moved_bind (fun e c' => moved_expect hf e c' .rightParen) _
    · rw [operand_sign hk, operand_sign (hkind ▸ hk), Cursor.advance_move, hop]
      exact moved_map _ _
  · exact operand_move_of_not_opens hf hopens (room + 1)

theorem chain_move_of_stops {c : Cursor} {least : Nat} (h : c.kind.Stops least) (room : Nat)
    (left : Expr) : chain room least left (c.move f) = moved f (chain room least left c) := by
  rw [chain_stops h, chain_stops (Cursor.kind_move hf c ▸ h)]
  rfl

theorem chain_move_succ {room : Nat}
    (hch : ∀ least left c,
      chain room least left (c.move f) = moved f (chain room least left c))
    (hex : ∀ least c, expression room least (c.move f) = moved f (expression room least c))
    (least : Nat) (left : Expr) (c : Cursor) :
    chain (room + 1) least left (c.move f) = moved f (chain (room + 1) least left c) := by
  rcases c.kind.chain_cases least with hk | ⟨op, hk, hle⟩
  · exact chain_move_of_stops hf hk (room + 1) left
  · rw [chain_step hk hle, chain_step (Cursor.kind_move hf c ▸ hk) hle, Cursor.advance_move, hex]
    exact moved_bind (fun right c' => hch least _ c') _

theorem operand_chain_move (room : Nat) :
    (∀ c, operand room (c.move f) = moved f (operand room c)) ∧
      ∀ least left c, chain room least left (c.move f) = moved f (chain room least left c) := by
  induction room with
  | zero =>
    refine ⟨operand_move_zero hf, fun least left c => ?_⟩
    rcases c.kind.chain_cases least with hk | ⟨op, hk, hle⟩
    · exact chain_move_of_stops hf hk 0 left
    · rw [chain_tooDeep hk hle, chain_tooDeep (Cursor.kind_move hf c ▸ hk) hle,
        Cursor.tooDeep_move hf]
      rfl
  | succ room ih =>
    have hex := expression_move_of ih.1 ih.2
    exact ⟨operand_move_succ hf ih.1 hex, chain_move_succ hf ih.2 hex⟩

theorem expression_move (room least : Nat) (c : Cursor) :
    expression room least (c.move f) = moved f (expression room least c) :=
  expression_move_of (operand_chain_move hf room).1 (operand_chain_move hf room).2 least c

/-- An assignment, if it moves where a variable stands in front of `=`. -/
theorem assignment_move_of {room : Nat} {c : Cursor}
    (hstep : ∀ name c', expression room 0 c = .ok (.var name, c') →
      expression room 0 (c.move f) = .ok (.var name, c'.move f) → c'.kind = .assign →
      assignment room (c.move f) = moved f (assignment room c)) :
    assignment room (c.move f) = moved f (assignment room c) := by
  have hex := expression_move hf room 0 c
  cases hr : expression room 0 c with
  | error halt =>
    rw [hr] at hex
    rw [assignment_error hr, assignment_error hex]
    rfl
  | ok r =>
    obtain ⟨target, c'⟩ := r
    rw [hr] at hex
    have hkind := Cursor.kind_move hf c'
    by_cases hk : c'.kind = .assign
    · rcases target.var_or_ne with ⟨name, rfl⟩ | he
      · exact hstep name c' hr hex hk
      · rw [assignment_target hr hk he, assignment_target hex (hkind.trans hk) he,
          Cursor.current_move hf, Cursor.previousSpan_move hf]
        rfl
    · rw [assignment_value hr hk, assignment_value hex (fun h => hk (hkind.symm.trans h))]
      rfl

theorem assignment_move (room : Nat) (c : Cursor) :
    assignment room (c.move f) = moved f (assignment room c) := by
  induction room generalizing c with
  | zero =>
    refine assignment_move_of hf fun name c' hr hr' hk => ?_
    rw [assignment_tooDeep hr hk, assignment_tooDeep hr' ((Cursor.kind_move hf c').trans hk),
      Cursor.tooDeep_move hf]
    rfl
  | succ room ih =>
    refine assignment_move_of hf fun name c' hr hr' hk => ?_
    rw [assignment_step hr hk, assignment_step hr' ((Cursor.kind_move hf c').trans hk),
      Cursor.advance_move, ih]
    exact moved_map _ _

theorem statement_move (room : Nat) (c : Cursor) :
    statement room (c.move f) = moved f (statement room c) := by
  have hkind := Cursor.kind_move hf
  by_cases hk : c.kind = .render
  · have hk' := (hkind c).trans hk
    by_cases hl : c.advance.kind = .leftParen
    · have hl' : (c.move f).advance.kind = .leftParen := by rw [Cursor.advance_move, hkind, hl]
      rw [statement_render hk hl, statement_render hk' hl', Cursor.advance_move,
        Cursor.advance_move, assignment_move hf]
      exact moved_bind (fun e c' => moved_expect hf (Stmt.render e) c' .rightParen) _
    · have hl' : (c.move f).advance.kind ≠ .leftParen := by rwa [Cursor.advance_move, hkind]
      rw [statement_unopened hk hl, statement_unopened hk' hl', Cursor.advance_move,
        Cursor.unexpected_move hf]
      rfl
  · rw [statement_expr hk, statement_expr (fun h => hk ((hkind c).symm.trans h)),
      assignment_move hf]
    exact moved_map _ _

end Parse

/-! ## Lists of tokens -/

namespace Stmt

theorem read_move {f : Nat → Nat} (hf : f 0 = 0) (tokens : List Token) :
    read (tokens.map (Token.move f)) = (read tokens).mapError (Halt.move f) := by
  have hstart : Cursor.start (tokens.map (Token.move f)) = (Cursor.start tokens).move f := rfl
  simp only [read, hstart, Parse.statement_move hf]
  cases Parse.statement maxNesting (Cursor.start tokens) with
  | error halt => rfl
  | ok r =>
    obtain ⟨s, c⟩ := r
    simp only [Parse.moved, bind, Except.bind, Cursor.kind_move hf, Cursor.current_move hf]
    split <;> rfl

/-- Tokens at other positions are read alike, and an error moves with them. -/
theorem ofTokens_move {f : Nat → Nat} (hf : f 0 = 0) (tokens : List Token) :
    ofTokens (tokens.map (Token.move f)) = (ofTokens tokens).mapError (ParseError.move f) := by
  rw [ofTokens, ofTokens, read_move hf]
  cases read tokens <;> rfl

end Stmt

/-! ## Forgetting positions -/

/-- The token without its place. -/
def Token.unplaced : Token → Token :=
  Token.move fun _ => 0

/-- The error without its place. -/
def ParseError.unplaced : ParseError → ParseError :=
  ParseError.move fun _ => 0

/-- Lists of tokens that differ in their positions only are read alike. -/
theorem Stmt.ofTokens_unplaced {ts us : List Token}
    (h : ts.map Token.unplaced = us.map Token.unplaced) :
    (Stmt.ofTokens ts).mapError ParseError.unplaced =
      (Stmt.ofTokens us).mapError ParseError.unplaced := by
  have hmove := fun tokens => Stmt.ofTokens_move (f := fun _ => 0) rfl tokens
  exact (hmove ts).symm.trans ((congrArg Stmt.ofTokens h).trans (hmove us))

/-- The failure without the place of an error in the grammar. -/
def Failure.unplaced : Failure → Failure
  | .parse err => .parse err.unplaced
  | failure => failure

@[simp] theorem Failure.message_unplaced (failure : Failure) :
    failure.unplaced.message = failure.message := by
  cases failure with
  | parse err => exact err.message_move _
  | lex | eval => rfl

/-- Texts whose tokens differ in their positions only are read alike. -/
theorem Stmt.parse_unplaced {source source' : String} {ts us : List Token}
    (hlex : Token.lex source = .ok ts) (hlex' : Token.lex source' = .ok us)
    (h : ts.map Token.unplaced = us.map Token.unplaced) :
    (Stmt.parse source).mapError Failure.unplaced =
      (Stmt.parse source').mapError Failure.unplaced := by
  have hfailure : ∀ x : Except ParseError Stmt,
      (x.mapError Failure.parse).mapError Failure.unplaced =
        (x.mapError ParseError.unplaced).mapError Failure.parse := by
    intro x
    cases x <;> rfl
  simp only [Stmt.parse, hlex, hlex']
  rw [hfailure, hfailure, Stmt.ofTokens_unplaced h]

/-- Outcomes that are alike but for their errors: the same value, or errors that are alike. -/
theorem alike_of_mapError_eq {ε δ α : Type} {f : ε → δ} {x y : Except ε α}
    (h : x.mapError f = y.mapError f) :
    (∃ a, x = .ok a ∧ y = .ok a) ∨
      ∃ err err', x = .error err ∧ y = .error err' ∧ f err = f err' := by
  cases x with
  | ok a =>
    cases y with
    | ok b =>
      cases h
      exact .inl ⟨a, rfl, rfl⟩
    | error err => cases h
  | error err =>
    cases y with
    | ok b => cases h
    | error err' => exact .inr ⟨err, err', rfl, rfl, Except.error.inj h⟩

end Reckon
