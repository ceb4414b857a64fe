import Reckon.Stmt.Parser

/-!
# What one step of a reader can do

The equations of the readers, one for each way in which they go on, and their inversions: the
relations `OperandReads`, `OperandHalts`, `ChainReads`, `ChainHalts`, `AssignmentReads`,
`AssignmentHalts`, `StatementReads` and `StatementHalts` list the steps of a reading that succeeds
and of one that fails. All later facts about the readers are derived from these, by induction on the
room.

* `ends_operand_chain`, `ends_expression`, `ends_assignment`, `ends_statement`: what holds at a
  place and is kept by moving past a token that is no end mark holds where a reading from that place
  ends, be it in a result or in an error.
-/

namespace Reckon

namespace Token.Kind

/-- A token of this kind does not go on with a chain of operators at least as tight as `least`. -/
def Stops (least : Nat) (k : Token.Kind) : Prop :=
  ∀ op, k.binaryOp? = some op → op.precedence < least

/-- A token of this kind opens a nesting level in front of an operand. -/
def Opens (k : Token.Kind) : Prop :=
  k = .leftParen ∨ ∃ op, k.unaryOp? = some op

theorem Stops.mono {least more : Nat} {k : Token.Kind} (h : k.Stops least) (hle : least ≤ more) :
    k.Stops more :=
  fun op hop => Nat.lt_of_lt_of_le (h op hop) hle

theorem stops_of_binaryOp?_eq_none {k : Token.Kind} (least : Nat) (h : k.binaryOp? = none) :
    k.Stops least := by
  intro op hop
  simp [h] at hop

/-- The five sorts of tokens that a reader of operands tells apart. -/
theorem operand_cases (k : Token.Kind) :
    (∃ op, k.unaryOp? = some op) ∨ k = .number ∨ k = .identifier ∨ k = .leftParen ∨
      (k.unaryOp? = none ∧ k ≠ .number ∧ k ≠ .identifier ∧ k ≠ .leftParen) := by
  cases k <;> simp [unaryOp?]

/-- A chain goes on at a token or stops there. -/
theorem chain_cases (least : Nat) (k : Token.Kind) :
    k.Stops least ∨ ∃ op, k.binaryOp? = some op ∧ least ≤ op.precedence := by
  cases h : k.binaryOp? with
  | none => exact .inl (stops_of_binaryOp?_eq_none least h)
  | some op =>
    by_cases hop : op.precedence < least
    · refine .inl fun op' hop' => ?_
      rw [h] at hop'
      cases hop'
      exact hop
    · exact .inr ⟨op, rfl, by omega⟩

theorem ne_eof_of_unaryOp? {k : Token.Kind} {op : UnaryOp} (h : k.unaryOp? = some op) :
    k ≠ .eof := by
  rintro rfl
  cases h

theorem ne_eof_of_binaryOp? {k : Token.Kind} {op : BinaryOp} (h : k.binaryOp? = some op) :
    k ≠ .eof := by
  rintro rfl
  cases h

end Token.Kind

theorem Expr.var_or_ne (e : Expr) : (∃ name, e = .var name) ∨ ∀ name, e ≠ .var name := by
  cases e <;> simp

@[simp] theorem Cursor.kind_cons (p : Option Token) (t : Token) (ts : List Token) :
    Cursor.kind ⟨p, t :: ts⟩ = t.kind :=
  rfl

theorem Cursor.expect_of_kind {c : Cursor} {k : Token.Kind} (h : c.kind = k) :
    c.expect k = .ok c.advance := by
  simp [Cursor.expect, h]

theorem Cursor.expect_of_kind_ne {c : Cursor} {k : Token.Kind} (h : c.kind ≠ k) :
    c.expect k = .error (c.unexpected (.token k)) := by
  simp [Cursor.expect, h]

@[simp] theorem Cursor.unexpected_place (c : Cursor) (expected : Expected) :
    (c.unexpected expected).place = c := by
  unfold Cursor.unexpected
  split <;> rfl

@[simp] theorem Cursor.tooDeep_place (c : Cursor) : c.tooDeep.place = c :=
  rfl

namespace Parse

variable {room least : Nat} {c c' : Cursor} {e left : Expr} {halt : Halt}

/-! ## Operands -/

theorem operand_sign {op : UnaryOp} (h : c.kind.unaryOp? = some op) :
    operand (room + 1) c = (operand room c.advance).map fun r => (.unary op r.1, r.2) := by
  rw [operand]
  simp only [h]
  cases operand room c.advance <;> rfl

theorem operand_number (h : c.kind = .number) :
    operand room c = .ok (.number (c.current.value?.getD 0), c.advance) := by
  rw [operand.eq_def]
  simp only [h, Token.Kind.unaryOp?]

theorem operand_identifier (h : c.kind = .identifier) :
    operand room c = .ok (.var c.current.text, c.advance) := by
  rw [operand.eq_def]
  simp only [h, Token.Kind.unaryOp?]

theorem operand_group (h : c.kind = .leftParen) :
    operand (room + 1) c = (expression room 0 c.advance).bind fun r =>
      (r.2.expect .rightParen).map fun c' => (r.1, c') := by
  rw [operand, expression]
  simp only [h, Token.Kind.unaryOp?]
  cases operand room c.advance with
  | error _ => rfl
  | ok first =>
    simp only [bind, Except.bind]
    cases chain room 0 first.1 first.2 with
    | error _ => rfl
    | ok r => cases r.2.expect .rightParen <;> rfl

theorem operand_opens (h : c.kind.Opens) : operand 0 c = .error c.tooDeep := by
  rw [operand]
  obtain h | ⟨op, h⟩ := h
  · simp only [h, Token.Kind.unaryOp?]
  · simp only [h]

theorem operand_missing (hu : c.kind.unaryOp? = none) (hn : c.kind ≠ .number)
    (hi : c.kind ≠ .identifier) (hl : c.kind ≠ .leftParen) :
    operand room c = .error (c.unexpected .expression) := by
  rw [operand.eq_def]
  simp only [hu]

/-- The last step of an operand that is read. -/
inductive OperandReads : Nat → Cursor → Expr → Cursor → Prop where
  | sign {room : Nat} {c c' : Cursor} {op : UnaryOp} {e : Expr}
      (hk : c.kind.unaryOp? = some op) (h : operand room c.advance = .ok (e, c')) :
    OperandReads (room + 1) c (.unary op e) c'
  | number {room : Nat} {c : Cursor} (hk : c.kind = .number) :
    OperandReads room c (.number (c.current.value?.getD 0)) c.advance
  | name {room : Nat} {c : Cursor} (hk : c.kind = .identifier) :
    OperandReads room c (.var c.current.text) c.advance
  | group {room : Nat} {c c' : Cursor} {e : Expr} (hk : c.kind = .leftParen)
      (h : expression room 0 c.advance = .ok (e, c')) (hk' : c'.kind = .rightParen) :
    OperandReads (room + 1) c e c'.advance

/-- The last step of an operand that is refused. -/
inductive OperandHalts : Nat → Cursor → Halt → Prop where
  | tooDeep {c : Cursor} (hk : c.kind.Opens) : OperandHalts 0 c c.tooDeep
  | missing {room : Nat} {c : Cursor} (hu : c.kind.unaryOp? = none) (hn : c.kind ≠ .number)
      (hi : c.kind ≠ .identifier) (hl : c.kind ≠ .leftParen) :
    OperandHalts room c (c.unexpected .expression)
  | sign {room : Nat} {c : Cursor} {op : UnaryOp} {halt : Halt}
      (hk : c.kind.unaryOp? = some op) (h : operand room c.advance = .error halt) :
    OperandHalts (room + 1) c halt
  | group {room : Nat} {c : Cursor} {halt : Halt} (hk : c.kind = .leftParen)
      (h : expression room 0 c.advance = .error halt) : OperandHalts (room + 1) c halt
  | unclosed {room : Nat} {c c' : Cursor} {e : Expr} (hk : c.kind = .leftParen)
      (h : expression room 0 c.advance = .ok (e, c')) (hk' : c'.kind ≠ .rightParen) :
    OperandHalts (room + 1) c (c'.unexpected (.token .rightParen))

theorem operandReads (h : operand room c = .ok (e, c')) : OperandReads room c e c' := by
  rcases c.kind.operand_cases with ⟨op, hk⟩ | hk | hk | hk | ⟨hu, hn, hi, hl⟩
  · cases room with
    | zero => simp [operand_opens (.inr ⟨op, hk⟩)] at h
    | succ room =>
      rw [operand_sign hk] at h
      cases hr : operand room c.advance with
      | error _ => simp [hr, Except.map] at h
      | ok r =>
        simp only [hr, Except.map, Except.ok.injEq, Prod.mk.injEq] at h
        obtain ⟨rfl, rfl⟩ := h
        exact .sign hk hr
  · rw [operand_number hk] at h
    cases h
    exact .number hk
  · rw [operand_identifier hk] at h
    cases h
    exact .name hk
  · cases room with
    | zero => simp [operand_opens (.inl hk)] at h
    | succ room =>
      rw [operand_group hk] at h
      cases hr : expression room 0 c.advance with
      | error _ => simp [hr, Except.bind] at h
      | ok r =>
        by_cases hk' : r.2.kind = .rightParen
        · simp only [hr, Except.bind, Cursor.expect_of_kind hk', Except.map, Except.ok.injEq,
            Prod.mk.injEq] at h
          obtain ⟨rfl, rfl⟩ := h
          exact .group hk hr hk'
        · simp [hr, Except.bind, Cursor.expect_of_kind_ne hk', Except.map] at h
  · simp [operand_missing hu hn hi hl] at h

theorem operandHalts (h : operand room c = .error halt) : OperandHalts room c halt := by
  rcases c.kind.operand_cases with ⟨op, hk⟩ | hk | hk | hk | ⟨hu, hn, hi, hl⟩
  · cases room with
    | zero =>
      rw [operand_opens (.inr ⟨op, hk⟩)] at h
      cases h
      exact .tooDeep (.inr ⟨op, hk⟩)
    | succ room =>
      rw [operand_sign hk] at h
      cases hr : operand room c.advance with
      | ok _ => simp [hr, Except.map] at h
      | error _ =>
        simp only [hr, Except.map, Except.error.injEq] at h
        exact .sign hk (h ▸ hr)
  · simp [operand_number hk] at h
  · simp [operand_identifier hk] at h
  · cases room with
    | zero =>
      rw [operand_opens (.inl hk)] at h
      cases h
      exact .tooDeep (.inl hk)
    | succ room =>
      rw [operand_group hk] at h
      cases hr : expression room 0 c.advance with
      | error _ =>
        simp only [hr, Except.bind, Except.error.injEq] at h
        exact .group hk (h ▸ hr)
      | ok r =>
        by_cases hk' : r.2.kind = .rightParen
        · simp [hr, Except.bind, Cursor.expect_of_kind hk', Except.map] at h
        · simp only [hr, Except.bind, Cursor.expect_of_kind_ne hk', Except.map,
            Except.error.injEq] at h
          subst h
          exact .unclosed hk hr hk'
  · rw [operand_missing hu hn hi hl] at h
    cases h
    exact .missing hu hn hi hl

/-! ## Chains of operators -/

theorem chain_stops (h : c.kind.Stops least) : chain room least left c = .ok (left, c) := by
  rw [chain.eq_def]
  cases hop : c.kind.binaryOp? with
  | none => rfl
  | some op => simp only [h op hop, if_true]

theorem chain_tooDeep {op : BinaryOp} (h : c.kind.binaryOp? = some op)
    (hle : least ≤ op.precedence) : chain 0 least left c = .error c.tooDeep := by
  rw [chain]
  simp only [h, Nat.not_lt.mpr hle, if_false]

theorem chain_step {op : BinaryOp} (h : c.kind.binaryOp? = some op) (hle : least ≤ op.precedence) :
    chain (room + 1) least left c = (expression room (op.precedence + 1) c.advance).bind fun r =>
      chain room least (.binary op left r.1) r.2 := by
  rw [chain, expression]
  simp only [h, Nat.not_lt.mpr hle, if_false]
  cases operand room c.advance with
  | error _ => rfl
  | ok first =>
    simp only [bind, Except.bind]

/-- The first step of a chain that is read. -/
inductive ChainReads : Nat → Nat → Expr → Cursor → Expr → Cursor → Prop where
  | stop {room least : Nat} {left : Expr} {c : Cursor} (hk : c.kind.Stops least) :
    ChainReads room least left c left c
  | step {room least : Nat} {op : BinaryOp} {left right e : Expr} {c c₁ c' : Cursor}
      (hk : c.kind.binaryOp? = some op) (hle : least ≤ op.precedence)
      (h : expression room (op.precedence + 1) c.advance = .ok (right, c₁))
      (h' : chain room least (.binary op left right) c₁ = .ok (e, c')) :
    ChainReads (room + 1) least left c e c'

/-- The first step of a chain that is refused. -/
inductive ChainHalts : Nat → Nat → Expr → Cursor → Halt → Prop where
  | tooDeep {least : Nat} {op : BinaryOp} {left : Expr} {c : Cursor}
      (hk : c.kind.binaryOp? = some op) (hle : least ≤ op.precedence) :
    ChainHalts 0 least left c c.tooDeep
  | right {room least : Nat} {op : BinaryOp} {left : Expr} {c : Cursor} {halt : Halt}
      (hk : c.kind.binaryOp? = some op) (hle : least ≤ op.precedence)
      (h : expression room (op.precedence + 1) c.advance = .error halt) :
    ChainHalts (room + 1) least left c halt
  | step {room least : Nat} {op : BinaryOp} {left right : Expr} {c c₁ : Cursor} {halt : Halt}
      (hk : c.kind.binaryOp? = some op) (hle : least ≤ op.precedence)
      (h : expression room (op.precedence + 1) c.advance = .ok (right, c₁))
      (h' : chain room least (.binary op left right) c₁ = .error halt) :
    ChainHalts (room + 1) least left c halt

theorem chainReads (h : chain room least left c = .ok (e, c')) :
    ChainReads room least left c e c' := by
  rcases c.kind.chain_cases least with hk | ⟨op, hk, hle⟩
  · rw [chain_stops hk] at h
    cases h
    exact .stop hk
  · cases room with
    | zero => simp [chain_tooDeep hk hle] at h
    | succ room =>
      rw [chain_step hk hle] at h
      cases hr : expression room (op.precedence + 1) c.advance with
      | error _ => simp [hr, Except.bind] at h
      | ok r =>
        simp only [hr, Except.bind] at h
        exact .step hk hle hr h

theorem chainHalts (h : chain room least left c = .error halt) :
    ChainHalts room least left c halt := by
  rcases c.kind.chain_cases least with hk | ⟨op, hk, hle⟩
  · simp [chain_stops hk] at h
  · cases room with
    | zero =>
      rw [chain_tooDeep hk hle] at h
      cases h
      exact .tooDeep hk hle
    | succ room =>
      rw [chain_step hk hle] at h
      cases hr : expression room (op.precedence + 1) c.advance with
      | error _ =>
        simp only [hr, Except.bind, Except.error.injEq] at h
        exact .right hk hle (h ▸ hr)
      | ok r =>
        simp only [hr, Except.bind] at h
        exact .step hk hle hr h

theorem expression_ok {first : Expr} (h : operand room c = .ok (first, c')) :
    expression room least c = chain room least first c' := by
  simp [expression, h, bind, Except.bind]

theorem expression_error (h : operand room c = .error halt) :
    expression room least c = .error halt := by
  simp [expression, h, bind, Except.bind]

/-- An expression is an operand and the chain that goes on from it. -/
theorem expression_eq_ok (h : expression room least c = .ok (e, c')) :
    ∃ first c₁, operand room c = .ok (first, c₁) ∧ chain room least first c₁ = .ok (e, c') := by
  cases hr : operand room c with
  | error _ => simp [expression_error hr] at h
  | ok r => exact ⟨r.1, r.2, rfl, expression_ok hr ▸ h⟩

/-- An expression is refused for its first operand or for the chain that goes on from it. -/
theorem expression_eq_error (h : expression room least c = .error halt) :
    operand room c = .error halt ∨
      ∃ first c₁, operand room c = .ok (first, c₁) ∧ chain room least first c₁ = .error halt := by
  cases hr : operand room c with
  | error _ =>
    rw [expression_error hr] at h
    cases h
    exact .inl rfl
  | ok r => exact .inr ⟨r.1, r.2, rfl, expression_ok hr ▸ h⟩

/-- A chain ends in front of a token that it cannot go on with. -/
theorem stops_of_chain : ∀ {room least : Nat} {left e : Expr} {c c' : Cursor},
    chain room least left c = .ok (e, c') → c'.kind.Stops least := by
  intro room
  induction room with
  | zero =>
    intro least left e c c' h
    cases chainReads h with
    | stop hk => exact hk
  | succ room ih =>
    intro least left e c c' h
    cases chainReads h with
    | stop hk => exact hk
    | step _ _ _ h' => exact ih h'

theorem stops_of_expression (h : expression room least c = .ok (e, c')) : c'.kind.Stops least := by
  obtain ⟨first, c₁, -, h⟩ := expression_eq_ok h
  exact stops_of_chain h

/-! ## Assignments and statements -/

theorem assignment_error (h : expression room 0 c = .error halt) :
    assignment room c = .error halt := by
  rw [assignment.eq_def]
  simp [h, bind, Except.bind]

theorem assignment_value (h : expression room 0 c = .ok (e, c')) (hk : c'.kind ≠ .assign) :
    assignment room c = .ok (e, c') := by
  rw [assignment.eq_def]
  simp [h, hk, bind, Except.bind, pure, Except.pure]

theorem assignment_target (h : expression room 0 c = .ok (e, c')) (hk : c'.kind = .assign)
    (he : ∀ name, e ≠ .var name) :
    assignment room c = .error ⟨.invalidTarget (.cover c.current.span c'.previousSpan), c'⟩ := by
  rw [assignment.eq_def]
  simp only [h, hk, bind, Except.bind, if_true]

theorem assignment_tooDeep {name : String} (h : expression 0 0 c = .ok (.var name, c'))
    (hk : c'.kind = .assign) : assignment 0 c = .error c'.tooDeep := by
  rw [assignment.eq_def]
  simp [h, hk, bind, Except.bind]

theorem assignment_step {name : String} (h : expression (room + 1) 0 c = .ok (.var name, c'))
    (hk : c'.kind = .assign) :
    assignment (room + 1) c =
      (assignment room c'.advance).map fun r => (.assign name r.1, r.2) := by
  rw [assignment.eq_def]
  simp only [h, hk, bind, Except.bind, if_true]
  rfl

/-- The first step of an assignment that is read. -/
inductive AssignmentReads : Nat → Cursor → Expr → Cursor → Prop where
  | value {room : Nat} {c c' : Cursor} {e : Expr} (h : expression room 0 c = .ok (e, c'))
      (hk : c'.kind ≠ .assign) : AssignmentReads room c e c'
  | step {room : Nat} {c c₁ c' : Cursor} {name : String} {e : Expr}
      (h : expression (room + 1) 0 c = .ok (.var name, c₁)) (hk : c₁.kind = .assign)
      (h' : assignment room c₁.advance = .ok (e, c')) :
    AssignmentReads (room + 1) c (.assign name e) c'

/-- The first step of an assignment that is refused. -/
inductive AssignmentHalts : Nat → Cursor → Halt → Prop where
  | expression {room : Nat} {c : Cursor} {halt : Halt} (h : expression room 0 c = .error halt) :
    AssignmentHalts room c halt
  | target {room : Nat} {c c' : Cursor} {e : Expr} (h : Parse.expression room 0 c = .ok (e, c'))
      (hk : c'.kind = .assign) (he : ∀ name, e ≠ .var name) :
    AssignmentHalts room c ⟨.invalidTarget (.cover c.current.span c'.previousSpan), c'⟩
  | tooDeep {c c' : Cursor} {name : String} (h : Parse.expression 0 0 c = .ok (.var name, c'))
      (hk : c'.kind = .assign) : AssignmentHalts 0 c c'.tooDeep
  | step {room : Nat} {c c₁ : Cursor} {name : String} {halt : Halt}
      (h : Parse.expression (room + 1) 0 c = .ok (.var name, c₁)) (hk : c₁.kind = .assign)
      (h' : assignment room c₁.advance = .error halt) : AssignmentHalts (room + 1) c halt

theorem assignmentReads (h : assignment room c = .ok (e, c')) : AssignmentReads room c e c' := by
  cases hr : expression room 0 c with
  | error _ => simp [assignment_error hr] at h
  | ok r =>
    by_cases hk : r.2.kind = .assign
    · obtain ⟨target, c₁⟩ := r
      rcases target.var_or_ne with ⟨name, rfl⟩ | he
      · cases room with
        | zero => simp [assignment_tooDeep hr hk] at h
        | succ room =>
          rw [assignment_step hr hk] at h
          cases hv : assignment room c₁.advance with
          | error _ => simp [hv, Except.map] at h
          | ok v =>
            simp only [hv, Except.map, Except.ok.injEq, Prod.mk.injEq] at h
            obtain ⟨rfl, rfl⟩ := h
            exact .step hr hk hv
      · simp [assignment_target hr hk he] at h
    · rw [assignment_value hr hk] at h
      cases h
      exact .value hr hk

theorem assignmentHalts (h : assignment room c = .error halt) : AssignmentHalts room c halt := by
  cases hr : expression room 0 c with
  | error _ =>
    rw [assignment_error hr] at h
    cases h
    exact .expression hr
  | ok r =>
    by_cases hk : r.2.kind = .assign
    · obtain ⟨target, c₁⟩ := r
      rcases target.var_or_ne with ⟨name, rfl⟩ | he
      · cases room with
        | zero =>
          rw [assignment_tooDeep hr hk] at h
          cases h
          exact .tooDeep hr hk
        | succ room =>
          rw [assignment_step hr hk] at h
          cases hv : assignment room c₁.advance with
          | ok _ => simp [hv, Except.map] at h
          | error _ =>
            simp only [hv, Except.map, Except.error.injEq] at h
            exact .step hr hk (h ▸ hv)
      · rw [assignment_target hr hk he] at h
        cases h
        exact .target hr hk he
    · simp [assignment_value hr hk] at h

theorem statement_expr (hk : c.kind ≠ .render) :
    statement room c = (assignment room c).map fun r => (.expr r.1, r.2) := by
  simp only [statement, hk, if_false]
  cases assignment room c <;> rfl

theorem statement_unopened (hk : c.kind = .render) (hl : c.advance.kind ≠ .leftParen) :
    statement room c = .error (c.advance.unexpected (.token .leftParen)) := by
  simp only [statement, hk, if_true, Cursor.expect_of_kind_ne hl]
  rfl

theorem statement_render (hk : c.kind = .render) (hl : c.advance.kind = .leftParen) :
    statement room c = (assignment room c.advance.advance).bind fun r =>
      (r.2.expect .rightParen).map fun c' => (.render r.1, c') := by
  simp only [statement, hk, if_true, Cursor.expect_of_kind hl, bind, Except.bind]
  cases assignment room c.advance.advance with
  | error _ => rfl
  | ok r => cases r.2.expect .rightParen <;> rfl

/-- How a statement is read. -/
inductive StatementReads : Nat → Cursor → Stmt → Cursor → Prop where
  | expr {room : Nat} {c c' : Cursor} {e : Expr} (hk : c.kind ≠ .render)
      (h : assignment room c = .ok (e, c')) : StatementReads room c (.expr e) c'
  | render {room : Nat} {c c' : Cursor} {e : Expr} (hk : c.kind = .render)
      (hl : c.advance.kind = .leftParen) (h : assignment room c.advance.advance = .ok (e, c'))
      (hr : c'.kind = .rightParen) : StatementReads room c (.render e) c'.advance

/-- How a statement is refused. -/
inductive StatementHalts : Nat → Cursor → Halt → Prop where
  | expr {room : Nat} {c : Cursor} {halt : Halt} (hk : c.kind ≠ .render)
      (h : assignment room c = .error halt) : StatementHalts room c halt
  | unopened {room : Nat} {c : Cursor} (hk : c.kind = .render) (hl : c.advance.kind ≠ .leftParen) :
    StatementHalts room c (c.advance.unexpected (.token .leftParen))
  | render {room : Nat} {c : Cursor} {halt : Halt} (hk : c.kind = .render)
      (hl : c.advance.kind = .leftParen) (h : assignment room c.advance.advance = .error halt) :
    StatementHalts room c halt
  | unclosed {room : Nat} {c c' : Cursor} {e : Expr} (hk : c.kind = .render)
      (hl : c.advance.kind = .leftParen) (h : assignment room c.advance.advance = .ok (e, c'))
      (hr : c'.kind ≠ .rightParen) : StatementHalts room c (c'.unexpected (.token .rightParen))

theorem statementReads {s : Stmt} (h : statement room c = .ok (s, c')) :
    StatementReads room c s c' := by
  by_cases hk : c.kind = .render
  · by_cases hl : c.advance.kind = .leftParen
    · rw [statement_render hk hl] at h
      cases hv : assignment room c.advance.advance with
      | error _ => simp [hv, Except.bind] at h
      | ok r =>
        by_cases hr : r.2.kind = .rightParen
        · simp only [hv, Except.bind, Cursor.expect_of_kind hr, Except.map, Except.ok.injEq,
            Prod.mk.injEq] at h
          obtain ⟨rfl, rfl⟩ := h
          exact .render hk hl hv hr
        · simp [hv, Except.bind, Cursor.expect_of_kind_ne hr, Except.map] at h
    · simp [statement_unopened hk hl] at h
  · rw [statement_expr hk] at h
    cases hv : assignment room c with
    | error _ => simp [hv, Except.map] at h
    | ok r =>
      simp only [hv, Except.map, Except.ok.injEq, Prod.mk.injEq] at h
      obtain ⟨rfl, rfl⟩ := h
      exact .expr hk hv

theorem statementHalts (h : statement room c = .error halt) : StatementHalts room c halt := by
  by_cases hk : c.kind = .render
  · by_cases hl : c.advance.kind = .leftParen
    · rw [statement_render hk hl] at h
      cases hv : assignment room c.advance.advance with
      | error _ =>
        simp only [hv, Except.bind, Except.error.injEq] at h
        exact .render hk hl (h ▸ hv)
      | ok r =>
        by_cases hr : r.2.kind = .rightParen
        · simp [hv, Except.bind, Cursor.expect_of_kind hr, Except.map] at h
        · simp only [hv, Except.bind, Cursor.expect_of_kind_ne hr, Except.map,
            Except.error.injEq] at h
          subst h
          exact .unclosed hk hl hv hr
    · rw [statement_unopened hk hl] at h
      cases h
      exact .unopened hk hl
  · rw [statement_expr hk] at h
    cases hv : assignment room c with
    | ok _ => simp [hv, Except.map] at h
    | error _ =>
      simp only [hv, Except.map, Except.error.injEq] at h
      exact .expr hk (h ▸ hv)

/-! ## What holds where a reading ends -/

/-- The place where a reading ends, in a result or in an error. -/
def endPlace {α : Type} : Except Halt (α × Cursor) → Cursor
  | .ok r => r.2
  | .error halt => halt.place

theorem holds_of_ok {α : Type} {I : Cursor → Prop} {r : Except Halt (α × Cursor)} {a : α}
    (hr : r = .ok (a, c)) (h : I (endPlace r)) : I c := by
  rwa [hr] at h

theorem holds_of_error {α : Type} {I : Cursor → Prop} {r : Except Halt (α × Cursor)}
    (hr : r = .error halt) (h : I (endPlace r)) : I halt.place := by
  rwa [hr] at h

section

variable {I : Cursor → Prop} (hI : ∀ c : Cursor, c.kind ≠ .eof → I c → I c.advance)

theorem ends_expression_of (hop : ∀ c, I c → I (endPlace (operand room c)))
    (hch : ∀ least left c, I c → I (endPlace (chain room least left c))) (least : Nat) (c : Cursor)
    (hc : I c) : I (endPlace (expression room least c)) := by
  have h := hop c hc
  cases hr : operand room c with
  | error halt =>
    rw [expression_error hr]
    exact holds_of_error hr h
  | ok r =>
    rw [expression_ok hr]
    exact hch least r.1 r.2 (holds_of_ok hr h)

include hI

theorem ends_operand_succ (hop : ∀ c, I c → I (endPlace (operand room c)))
    (hex : ∀ least c, I c → I (endPlace (expression room least c))) (c : Cursor) (hc : I c) :
    I (endPlace (operand (room + 1) c)) := by
  cases hr : operand (room + 1) c with
  | ok r =>
    obtain ⟨e, c'⟩ := r
    cases operandReads hr with
    | sign hk h => exact holds_of_ok h (hop _ (hI c (Token.Kind.ne_eof_of_unaryOp? hk) hc))
    | number hk => exact hI c (by simp [hk]) hc
    | name hk => exact hI c (by simp [hk]) hc
    | group hk h hk' =>
      exact hI _ (by simp [hk']) (holds_of_ok h (hex 0 _ (hI c (by simp [hk]) hc)))
  | error halt =>
    cases operandHalts hr with
    | missing => simpa [endPlace] using hc
    | sign hk h => exact holds_of_error h (hop _ (hI c (Token.Kind.ne_eof_of_unaryOp? hk) hc))
    | group hk h => exact holds_of_error h (hex 0 _ (hI c (by simp [hk]) hc))
    | unclosed hk h hk' =>
      have := holds_of_ok h (hex 0 _ (hI c (by simp [hk]) hc))
      simpa [endPlace] using this

theorem ends_chain_succ (hch : ∀ least left c, I c → I (endPlace (chain room least left c)))
    (hex : ∀ least c, I c → I (endPlace (expression room least c))) (least : Nat) (left : Expr)
    (c : Cursor) (hc : I c) : I (endPlace (chain (room + 1) least left c)) := by
  rcases c.kind.chain_cases least with hk | ⟨op, hk, hle⟩
  · rw [chain_stops hk]
    exact hc
  · have h := hex (op.precedence + 1) _ (hI c (Token.Kind.ne_eof_of_binaryOp? hk) hc)
    rw [chain_step hk hle]
    cases hr : expression room (op.precedence + 1) c.advance with
    | error _ => rwa [hr] at h
    | ok r => exact hch _ _ _ (holds_of_ok hr h)

theorem ends_operand_chain (room : Nat) :
    (∀ c, I c → I (endPlace (operand room c))) ∧
      ∀ least left c, I c → I (endPlace (chain room least left c)) := by
  induction room with
  | zero =>
    refine ⟨fun c hc => ?_, fun least left c hc => ?_⟩
    · cases hr : operand 0 c with
      | ok r =>
        obtain ⟨e, c'⟩ := r
        cases operandReads hr with
        | number hk => exact hI c (by simp [hk]) hc
        | name hk => exact hI c (by simp [hk]) hc
      | error halt =>
        cases operandHalts hr with
        | tooDeep => exact hc
        | missing => simpa [endPlace] using hc
    · rcases c.kind.chain_cases least with hk | ⟨op, hk, hle⟩
      · rw [chain_stops hk]
        exact hc
      · rw [chain_tooDeep hk hle]
        exact hc
  | succ room ih =>
    have hex := ends_expression_of ih.1 ih.2
    exact ⟨ends_operand_succ hI ih.1 hex, ends_chain_succ hI ih.2 hex⟩

theorem ends_expression (room least : Nat) (hc : I c) : I (endPlace (expression room least c)) :=
  ends_expression_of (ends_operand_chain hI room).1 (ends_operand_chain hI room).2 least c hc

theorem ends_assignment (room : Nat) (hc : I c) : I (endPlace (assignment room c)) := by
  induction room generalizing c with
  | zero =>
    have h := ends_expression hI 0 0 hc
    cases hr : assignment 0 c with
    | ok r =>
      obtain ⟨e, c'⟩ := r
      cases assignmentReads hr with
      | value h' => exact holds_of_ok h' h
    | error halt =>
      cases assignmentHalts hr with
      | expression h' => exact holds_of_error h' h
      | target h' | tooDeep h' => exact holds_of_ok h' h
  | succ room ih =>
    have h := ends_expression hI (room + 1) 0 hc
    cases hr : assignment (room + 1) c with
    | ok r =>
      obtain ⟨e, c'⟩ := r
      cases assignmentReads hr with
      | value h' => exact holds_of_ok h' h
      | step h' hk hv => exact holds_of_ok hv (ih (hI _ (by simp [hk]) (holds_of_ok h' h)))
    | error halt =>
      cases assignmentHalts hr with
      | expression h' => exact holds_of_error h' h
      | target h' => exact holds_of_ok h' h
      | step h' hk hv => exact holds_of_error hv (ih (hI _ (by simp [hk]) (holds_of_ok h' h)))

theorem ends_statement (room : Nat) (hc : I c) : I (endPlace (statement room c)) := by
  cases hr : statement room c with
  | ok r =>
    obtain ⟨s, c'⟩ := r
    cases statementReads hr with
    | expr hk h => exact holds_of_ok h (ends_assignment hI room hc)
    | render hk hl h hk' =>
      have := ends_assignment hI room (hI _ (by simp [hl]) (hI _ (by simp [hk]) hc))
      exact hI _ (by simp [hk']) (holds_of_ok h this)
  | error halt =>
    cases statementHalts hr with
    | expr hk h => exact holds_of_error h (ends_assignment hI room hc)
    | unopened hk hl => simpa [endPlace] using hI _ (by simp [hk]) hc
    | render hk hl h =>
      have := ends_assignment hI room (hI _ (by simp [hl]) (hI _ (by simp [hk]) hc))
      exact holds_of_error h this
    | unclosed hk hl h hk' =>
      have := ends_assignment hI room (hI _ (by simp [hl]) (hI _ (by simp [hk]) hc))
      simpa [endPlace] using holds_of_ok h this

end

end Parse

end Reckon
