import Reckon.Proofs.Machine

/-!
# The depth counter is balanced

The machine restores its counter in two ways: a sign, a group and an assignment lower it by one when
their result comes, and a chain of operators sets it back to the depth at which it started. An error
restores nothing. What makes both ways agree is what the frames on the stack say about the counter:
each of them fixes the depth at which its own routine has to give a result back, and bounds that at
which it gets one.

* `Pending`: the frames that a call has put on the stack, and the depth at which a result is due.
* `balanced_step`, `balanced_run`: every step keeps the counter in line with the frames.
* `step_over`, `run_over`: up to its return, a call does not look at the frames of its callers.
* `Routine.consumes`: a routine that gives a result has moved past a token, if there was one.
* `call_balances_depth`: calls of all routines, from every place and depth, on every stack.
-/

namespace Reckon

namespace Parse

variable {room least : Nat} {c c' : Cursor} {e : Expr}

/-! ## Every routine moves on -/

theorem suffix_advance_of_operand (h : operand room c = .ok (e, c')) :
    c'.rest <:+ c.advance.rest := by
  cases operandReads h with
  | sign _ h₁ => exact suffix_of_operand h₁
  | number => exact List.suffix_rfl
  | name => exact List.suffix_rfl
  | @group _ _ c₁ _ _ h₁ _ => exact c₁.advance_rest_suffix.trans (suffix_of_expression h₁)

theorem suffix_advance_of_expression (h : expression room least c = .ok (e, c')) :
    c'.rest <:+ c.advance.rest := by
  obtain ⟨first, c₁, h₁, h₂⟩ := expression_eq_ok h
  exact (suffix_of_chain h₂).trans (suffix_advance_of_operand h₁)

theorem suffix_advance_of_assignment (h : assignment room c = .ok (e, c')) :
    c'.rest <:+ c.advance.rest := by
  cases assignmentReads h with
  | value h₁ => exact suffix_advance_of_expression h₁
  | @step _ _ c₁ _ _ _ h₁ _ h₂ =>
    have hvalue := (suffix_of_assignment h₂).trans c₁.advance_rest_suffix
    exact hvalue.trans (suffix_advance_of_expression h₁)

end Parse

namespace Machine

/-- What a routine reads with `room` levels left. A primary is an operand without a sign. -/
def Routine.read (room : Nat) (c : Cursor) : Routine → Except Halt (Expr × Cursor)
  | .assignment => Parse.assignment room c
  | .expression least => Parse.expression room least c
  | .unary => Parse.operand room c
  | .primary =>
    if c.kind.unaryOp? = none then Parse.operand room c else .error (c.unexpected .expression)

theorem Routine.consumes (routine : Routine) {room : Nat} {c c' : Cursor} {e : Expr}
    (h : routine.read room c = .ok (e, c')) (hne : c.rest ≠ []) :
    ∃ used, used ≠ [] ∧ c.rest = used ++ c'.rest := by
  have hsuffix : c'.rest <:+ c.advance.rest := by
    cases routine with
    | assignment => exact Parse.suffix_advance_of_assignment h
    | expression least => exact Parse.suffix_advance_of_expression h
    | unary => exact Parse.suffix_advance_of_operand h
    | primary =>
      rw [Routine.read] at h
      split at h
      · exact Parse.suffix_advance_of_operand h
      · cases h
  obtain ⟨p, t, ts, rfl⟩ := Cursor.exists_cons_of_suffix List.suffix_rfl hne
  obtain ⟨us, hus⟩ := hsuffix
  exact ⟨t :: us, List.cons_ne_nil t us, congrArg (t :: ·) hus.symm⟩

/-! ## What a call comes to -/

variable {room depth base n : Nat} {c : Cursor} {s : State} {stack : List Frame}

theorem step_primary_sign {op : UnaryOp} (hk : c.kind.unaryOp? = some op) (stack : List Frame) :
    step (.busy (.call .primary) depth c stack) = .done (.error (c.unexpected .expression)) := by
  rw [step, stepCall]
  split
  · next h => rw [h] at hk; cases hk
  · next h => rw [h] at hk; cases hk
  · next h => rw [h] at hk; cases hk
  · rfl

theorem reaches_primary (c : Cursor) (stack : List Frame) (hd : depth + room = maxNesting) :
    Reaches (.busy (.call .primary) depth c stack)
      (resume depth stack (Routine.read room c .primary)) := by
  rw [Routine.read]
  cases hk : c.kind.unaryOp? with
  | some op => exact .step (step_primary_sign hk stack) (.refl _)
  | none =>
    obtain ⟨n, hn⟩ := (reaches_operand_chain room).1 c stack hd
    rw [if_pos rfl]
    cases n with
    | zero =>
      -- a call is no result
      cases hr : Parse.operand room c <;> rw [hr] at hn <;> cases hn
    | succ n =>
      rw [run, step_unary hk] at hn
      exact ⟨n, hn⟩

theorem reaches_call (routine : Routine) (c : Cursor) (stack : List Frame)
    (hd : depth + room = maxNesting) :
    Reaches (.busy (.call routine) depth c stack) (resume depth stack (routine.read room c)) := by
  cases routine with
  | assignment => exact reaches_assignment c stack hd
  | expression least => exact reaches_expression least c stack hd
  | unary => exact (reaches_operand_chain room).1 c stack hd
  | primary => exact reaches_primary c stack hd

/-! ## The counter and the frames -/

/-- The frames were put on the stack by a call at the depth `base`, and the topmost of them gets its
result at the given depth. -/
inductive Pending (base : Nat) : List Frame → Nat → Prop where
  | nil : Pending base [] base
  | sign {fs : List Frame} {d : Nat} (op : UnaryOp) (h : Pending base fs d) :
      Pending base (.sign op :: fs) (d + 1)
  | group {fs : List Frame} {d : Nat} (h : Pending base fs d) : Pending base (.group :: fs) (d + 1)
  | first {fs : List Frame} {d : Nat} (least : Nat) (h : Pending base fs d) :
      Pending base (.first least d :: fs) d
  /-- The operators of the chain have taken some levels since it started at the depth `d`. -/
  | right {fs : List Frame} {d depth : Nat} (least : Nat) (op : BinaryOp) (left : Expr)
      (h : Pending base fs d) (hlt : d < depth) : Pending base (.right least d op left :: fs) depth
  | target {fs : List Frame} {d : Nat} (start : Span) (h : Pending base fs d) :
      Pending base (.target start :: fs) d
  | value {fs : List Frame} {d : Nat} (name : String) (h : Pending base fs d) :
      Pending base (.value name :: fs) (d + 1)

theorem Pending.base_le {fs : List Frame} (h : Pending base fs depth) : base ≤ depth := by
  induction h with
  | nil => exact Nat.le_refl _
  | sign _ _ ih => exact Nat.le_succ_of_le ih
  | group _ ih => exact Nat.le_succ_of_le ih
  | first _ _ ih => exact ih
  | right _ _ _ _ hlt ih => exact Nat.le_of_lt (Nat.lt_of_le_of_lt ih hlt)
  | target _ _ ih => exact ih
  | value _ _ ih => exact Nat.le_succ_of_le ih

/-- The depth at which what is done gives its result to the stack. -/
def Task.due (depth : Nat) : Task → Nat
  | .call _ => depth
  | .loop _ base _ => base
  | .back _ => depth

/-- The counter agrees with the frames that a call at the depth `base` has put on an empty stack. -/
def Balanced (base : Nat) : State → Prop
  | .busy task depth _ stack =>
    Pending base stack (task.due depth) ∧ task.due depth ≤ depth ∧ depth ≤ maxNesting
  | .done _ => True

theorem balanced_enter {next : Nat → State}
    (h : depth + 1 ≤ maxNesting → Balanced base (next (depth + 1))) :
    Balanced base (enter depth c next) := by
  unfold enter
  split
  · next hlt => exact h hlt
  · trivial

theorem balanced_expect {kind : Token.Kind} {next : Cursor → State}
    (h : ∀ c, Balanced base (next c)) : Balanced base (expect c kind next) := by
  unfold expect
  split
  · exact h _
  · trivial

theorem balanced_stepCall (h : Pending base stack depth) (hle : depth ≤ maxNesting)
    (routine : Routine) : Balanced base (stepCall depth c stack routine) := by
  cases routine with
  | assignment => exact ⟨h.target _, Nat.le_refl _, hle⟩
  | expression least => exact ⟨h.first least, Nat.le_refl _, hle⟩
  | unary =>
    rw [stepCall]
    split
    · exact balanced_enter fun hle' => ⟨h.sign _, Nat.le_refl _, hle'⟩
    · exact ⟨h, Nat.le_refl _, hle⟩
  | primary =>
    rw [stepCall]
    split
    · exact ⟨h, Nat.le_refl _, hle⟩
    · exact ⟨h, Nat.le_refl _, hle⟩
    · exact balanced_enter fun hle' => ⟨h.group, Nat.le_refl _, hle'⟩
    · trivial

theorem balanced_stepLoop {start : Nat} (h : Pending base stack start) (hstart : start ≤ depth)
    (hle : depth ≤ maxNesting) (least : Nat) (left : Expr) :
    Balanced base (stepLoop depth c stack least start left) := by
  have hback : Balanced base (.busy (.back left) start c stack) :=
    ⟨h, Nat.le_refl _, Nat.le_trans hstart hle⟩
  unfold stepLoop
  split
  · split
    · exact hback
    · refine balanced_enter fun hle' => ⟨?_, Nat.le_refl _, hle'⟩
      exact h.right _ _ _ (Nat.lt_succ_of_le hstart)
  · exact hback

theorem balanced_target {start : Span} (h : Pending base stack depth) (hle : depth ≤ maxNesting)
    (e : Expr) : Balanced base (step (.busy (.back e) depth c (.target start :: stack))) := by
  by_cases hk : c.kind = .assign
  · rcases e.var_or_ne with ⟨name, rfl⟩ | he
    · rw [step_target_name hk]
      exact balanced_enter fun hle' => ⟨h.value name, Nat.le_refl _, hle'⟩
    · rw [step_target_invalid hk he]
      trivial
  · rw [step_target_value hk]
    exact ⟨h, Nat.le_refl _, hle⟩

theorem balanced_stepBack (h : Pending base stack depth) (hle : depth ≤ maxNesting) (e : Expr) :
    Balanced base (stepBack e depth c stack) := by
  cases h with
  | nil => exact ⟨.nil, Nat.le_refl _, hle⟩
  | sign op h => exact ⟨h, Nat.le_refl _, Nat.le_of_succ_le hle⟩
  | group h => exact balanced_expect fun _ => ⟨h, Nat.le_refl _, Nat.le_of_succ_le hle⟩
  | first least h => exact ⟨h, Nat.le_refl _, hle⟩
  | right least op left h hlt => exact ⟨h, Nat.le_of_lt hlt, hle⟩
  | target start h => exact balanced_target h hle e
  | value name h => exact ⟨h, Nat.le_refl _, Nat.le_of_succ_le hle⟩

theorem balanced_step (h : Balanced base s) : Balanced base (step s) := by
  cases s with
  | done outcome => trivial
  | busy task depth c stack =>
    obtain ⟨hpending, hdue, hle⟩ := h
    cases task with
    | call routine => exact balanced_stepCall hpending hle routine
    | loop least start left => exact balanced_stepLoop hpending hdue hle least left
    | back e => exact balanced_stepBack hpending hle e

theorem balanced_run (h : Balanced base s) (n : Nat) : Balanced base (run n s) := by
  induction n generalizing s with
  | zero => exact h
  | succ n ih => exact ih (balanced_step h)

theorem balanced_call (hle : depth ≤ maxNesting) (routine : Routine) (c : Cursor) :
    Balanced depth (.busy (.call routine) depth c []) :=
  ⟨.nil, Nat.le_refl _, hle⟩

/-! ## The counter of a state -/

/-- The depth that the machine has counted, as long as it is at work. -/
def State.depth? : State → Option Nat
  | .busy _ depth _ _ => some depth
  | .done _ => none

/-- Frames that lower the counter by one when their result comes. -/
def Frame.Lowers : Frame → Prop
  | .sign _ | .group | .value _ => True
  | _ => False

/-- The next step gives a result to a frame that lowers the counter by one. -/
def State.Lowers : State → Prop
  | .busy (.back _) _ _ (frame :: _) => frame.Lowers
  | _ => False

theorem Balanced.within (h : Balanced base s) (hs : s.depth? = some depth) :
    base ≤ depth ∧ depth ≤ maxNesting := by
  cases s with
  | done outcome => cases hs
  | busy task d c stack =>
    cases hs
    exact ⟨Nat.le_trans h.1.base_le h.2.1, h.2.2⟩

/-- A frame that lowers the counter took a level of its own, which is still there. -/
theorem Balanced.base_lt (h : Balanced base s) (hs : s.depth? = some depth) (hlowers : s.Lowers) :
    base < depth := by
  cases s with
  | done outcome => cases hs
  | busy task d c stack =>
    cases hs
    cases task with
    | call routine => exact hlowers.elim
    | loop least start left => exact hlowers.elim
    | back e =>
      obtain ⟨hpending, -, -⟩ := h
      cases hpending with
      | nil => exact hlowers.elim
      | sign op h => exact Nat.lt_succ_of_le h.base_le
      | group h => exact Nat.lt_succ_of_le h.base_le
      | first least h => exact hlowers.elim
      | right least op left h hlt => exact hlowers.elim
      | target start h => exact hlowers.elim
      | value name h => exact Nat.lt_succ_of_le h.base_le

/-! ## Calls on a stack -/

/-- A result is given to the frames `stack`. -/
def State.Returns (stack : List Frame) : State → Prop
  | .busy (.back _) _ _ fs => fs = stack
  | _ => False

instance (stack : List Frame) : (s : State) → Decidable (s.Returns stack)
  | .busy (.back _) _ _ fs => inferInstanceAs (Decidable (fs = stack))
  | .busy (.call _) _ _ _ => inferInstanceAs (Decidable False)
  | .busy (.loop _ _ _) _ _ _ => inferInstanceAs (Decidable False)
  | .done _ => inferInstanceAs (Decidable False)

/-- On an empty stack a result stays. -/
theorem step_of_returns (h : s.Returns []) : step s = s := by
  cases s with
  | done outcome => rfl
  | busy task depth c fs =>
    cases task with
    | call routine => exact h.elim
    | loop least start left => exact h.elim
    | back e =>
      obtain rfl : fs = [] := h
      rfl

/-- In the first `n` steps from `s` no result is given to the frames `stack`. -/
def During (stack : List Frame) (s : State) (n : Nat) : Prop :=
  ∀ m < n, ¬ (run m s).Returns stack

instance (stack : List Frame) (s : State) (n : Nat) : Decidable (During stack s n) :=
  inferInstanceAs (Decidable (∀ m < n, ¬ (run m s).Returns stack))

theorem during_zero : During stack s 0 :=
  fun m hm => absurd hm (Nat.not_lt_zero m)

theorem during_succ : During stack s (n + 1) ↔ During stack s n ∧ ¬ (run n s).Returns stack :=
  Nat.forall_lt_succ_right

/-- The same state with further frames below its own. -/
def State.over (stack : List Frame) : State → State
  | .busy task depth c fs => .busy task depth c (fs ++ stack)
  | .done outcome => .done outcome

theorem depth?_over (stack : List Frame) (s : State) : (s.over stack).depth? = s.depth? := by
  cases s <;> rfl

theorem resume_over (depth : Nat) (stack : List Frame) (r : Except Halt (Expr × Cursor)) :
    (resume depth [] r).over stack = resume depth stack r := by
  cases r <;> rfl

theorem returns_over : (s.over stack).Returns stack ↔ s.Returns [] := by
  cases s with
  | done outcome => exact Iff.rfl
  | busy task depth c fs =>
    cases task with
    | call routine => exact Iff.rfl
    | loop least start left => exact Iff.rfl
    | back e => exact List.append_left_eq_self

theorem lowers_over (h : ¬ s.Returns []) : (s.over stack).Lowers ↔ s.Lowers := by
  cases s with
  | done outcome => exact Iff.rfl
  | busy task depth c fs =>
    cases task with
    | call routine => exact Iff.rfl
    | loop least start left => exact Iff.rfl
    | back e =>
      cases fs with
      | nil => exact absurd rfl h
      | cons frame fs => exact Iff.rfl

theorem enter_over (depth : Nat) (c : Cursor) (next : Nat → State) :
    (enter depth c next).over stack = enter depth c fun d => (next d).over stack := by
  unfold enter
  split <;> rfl

theorem expect_over (c : Cursor) (kind : Token.Kind) (next : Cursor → State) :
    (expect c kind next).over stack = expect c kind fun c => (next c).over stack := by
  unfold expect
  split <;> rfl

theorem stepCall_over (routine : Routine) (fs : List Frame) :
    stepCall depth c (fs ++ stack) routine = (stepCall depth c fs routine).over stack := by
  cases routine with
  | assignment => rfl
  | expression least => rfl
  | unary =>
    rw [stepCall, stepCall]
    split
    · rw [enter_over]
      rfl
    · rfl
  | primary =>
    rw [stepCall, stepCall]
    split
    · rfl
    · rfl
    · rw [enter_over]
      rfl
    · rfl

theorem stepLoop_over (least start : Nat) (left : Expr) (fs : List Frame) :
    stepLoop depth c (fs ++ stack) least start left =
      (stepLoop depth c fs least start left).over stack := by
  unfold stepLoop
  split
  · split
    · rfl
    · rw [enter_over]
      rfl
  · rfl

theorem stepBack_over (e : Expr) (frame : Frame) (fs : List Frame) :
    stepBack e depth c (frame :: fs ++ stack) = (stepBack e depth c (frame :: fs)).over stack := by
  cases frame with
  | sign op => rfl
  | group =>
    rw [stepBack, expect_over]
    rfl
  | first least start => rfl
  | right least start op left => rfl
  | target start =>
    show step (.busy (.back e) depth c (.target start :: (fs ++ stack))) =
      (step (.busy (.back e) depth c (.target start :: fs))).over stack
    by_cases hk : c.kind = .assign
    · rcases e.var_or_ne with ⟨name, rfl⟩ | he
      · rw [step_target_name hk, step_target_name hk, enter_over]
        rfl
      · rw [step_target_invalid hk he, step_target_invalid hk he]
        rfl
    · rw [step_target_value hk, step_target_value hk]
      rfl
  | value name => rfl
  | evaluated => rfl
  | drawn =>
    rw [stepBack, expect_over]
    rfl

/-- Only a result that nothing of its own waits for is given to the frames below. -/
theorem step_over (h : ¬ s.Returns []) : step (s.over stack) = (step s).over stack := by
  cases s with
  | done outcome => rfl
  | busy task depth c fs =>
    cases task with
    | call routine => exact stepCall_over routine fs
    | loop least start left => exact stepLoop_over least start left fs
    | back e =>
      cases fs with
      | nil => exact absurd rfl h
      | cons frame fs => exact stepBack_over e frame fs

theorem run_succ (n : Nat) (s : State) : run (n + 1) s = step (run n s) :=
  run_add n 1 s

theorem run_over (h : During [] s n) : run n (s.over stack) = (run n s).over stack := by
  induction n with
  | zero => rfl
  | succ n ih =>
    obtain ⟨hbefore, hreturn⟩ := during_succ.mp h
    rw [run_succ, run_succ, ih hbefore, step_over hreturn]

theorem during_over : During stack (s.over stack) n ↔ During [] s n := by
  induction n with
  | zero => exact ⟨fun _ => during_zero, fun _ => during_zero⟩
  | succ n ih =>
    rw [during_succ, during_succ, ih]
    refine and_congr_right fun h => ?_
    rw [run_over h, returns_over]

/-- Nothing happens behind a return to an empty stack, so what is reached is reached up to it. -/
theorem exists_during (n : Nat) (s : State) : ∃ m, During [] s m ∧ run m s = run n s := by
  induction n generalizing s with
  | zero => exact ⟨0, during_zero, rfl⟩
  | succ n ih =>
    by_cases hs : s.Returns []
    · rw [run, step_of_returns hs]
      exact ih s
    · obtain ⟨m, hm, heq⟩ := ih (step s)
      refine ⟨m + 1, fun k hk => ?_, heq⟩
      cases k with
      | zero => exact hs
      | succ k => exact hm k (Nat.lt_of_succ_lt_succ hk)

/-- **The depth counter is balanced and bounded.** A call of any routine, at a depth within the
limit, from any place and on any stack, comes to what the reader of that name gives with the levels
left: its result is given back at the very depth of the call, or an error ends all. A routine with a
result has moved past at least one token, if the place was inside of the list. Up to the return the
counter is never below the depth of the call and never above the limit; and where it is lowered by
one, it is above the depth of the call, so that there is a level to give back. -/
theorem call_balances_depth (routine : Routine) {depth : Nat} (hdepth : depth ≤ maxNesting)
    (c : Cursor) (stack : List Frame) :
    (∃ n, During stack (.busy (.call routine) depth c stack) n ∧
      run n (.busy (.call routine) depth c stack) =
        resume depth stack (routine.read (maxNesting - depth) c)) ∧
    (∀ e c', routine.read (maxNesting - depth) c = .ok (e, c') → c.rest ≠ [] →
      ∃ used, used ≠ [] ∧ c.rest = used ++ c'.rest) ∧
    (∀ n d, During stack (.busy (.call routine) depth c stack) n →
      (run n (.busy (.call routine) depth c stack)).depth? = some d →
        depth ≤ d ∧ d ≤ maxNesting) ∧
    ∀ n d, During stack (.busy (.call routine) depth c stack) (n + 1) →
      (run n (.busy (.call routine) depth c stack)).depth? = some d →
        (run n (.busy (.call routine) depth c stack)).Lowers → depth < d := by
  have hover : .busy (.call routine) depth c stack =
      (State.busy (.call routine) depth c []).over stack := rfl
  have hbalanced := balanced_run (balanced_call hdepth routine c)
  rw [hover]
  refine ⟨?_, fun e c' h hne => routine.consumes h hne, ?_, ?_⟩
  · obtain ⟨n, hn⟩ := reaches_call routine c [] (Nat.add_sub_cancel' hdepth)
    obtain ⟨m, hduring, hm⟩ := exists_during n (.busy (.call routine) depth c [])
    refine ⟨m, during_over.mpr hduring, ?_⟩
    rw [run_over hduring, hm, hn, resume_over]
  · intro n d hduring hd
    rw [run_over (during_over.mp hduring), depth?_over] at hd
    exact (hbalanced n).within hd
  · intro n d hduring hd hlowers
    obtain ⟨hbefore, hreturn⟩ := during_succ.mp (during_over.mp hduring)
    rw [run_over hbefore, depth?_over] at hd
    rw [run_over hbefore, lowers_over hreturn] at hlowers
    exact (hbalanced n).base_lt hd hlowers

/-- A one in a group. -/
def groupedOne : List Token :=
  [⟨.leftParen, ⟨0, 1⟩, "(", none⟩, ⟨.number, ⟨1, 2⟩, "1", some 1⟩,
    ⟨.rightParen, ⟨2, 3⟩, ")", none⟩]

/-- A group behind a sign takes the last level there is, and gives it back. -/
theorem call_balances_depth_lastLevel :
    511 ≤ maxNesting ∧
    (∃ n, run n (.busy (.call .primary) 511 (.start groupedOne) [.sign .minus]) =
      .busy (.back (.number 1)) 511 ⟨some ⟨.rightParen, ⟨2, 3⟩, ")", none⟩, []⟩ [.sign .minus]) ∧
    (∃ used, used ≠ [] ∧ groupedOne = used ++ []) ∧
    (run 6 (.busy (.call .primary) 511 (.start groupedOne) [.sign .minus])).depth? = some 512 ∧
    512 ≤ maxNesting ∧ 511 < 512 := by
  have hread : Routine.read (maxNesting - 511) (.start groupedOne) .primary =
      .ok (.number 1, ⟨some ⟨.rightParen, ⟨2, 3⟩, ")", none⟩, []⟩) := rfl
  obtain ⟨⟨n, -, hn⟩, hused, hwithin, hlowers⟩ :=
    call_balances_depth .primary (by decide : 511 ≤ maxNesting) (.start groupedOne) [.sign .minus]
  have hduring : During [.sign .minus]
      (.busy (.call .primary) 511 (.start groupedOne) [.sign .minus]) 7 := by
    decide
  rw [hread] at hn
  refine ⟨by decide, ⟨n, hn⟩, hused _ _ hread (by decide), rfl, ?_, ?_⟩
  · exact (hwithin 6 512 (during_succ.mp hduring).1 rfl).2
  · exact hlowers 6 512 hduring rfl trivial

end Machine

end Reckon
