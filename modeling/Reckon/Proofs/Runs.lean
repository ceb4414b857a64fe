import Reckon.Proofs.Atomicity

/-!
# Runs under narrower and wider bounds

The same texts are run from the same store under two bounds, of which one admits whatever the other
admits. An evaluation under the narrow bounds is one under the wide bounds, but for the bound that a
failure names, until the narrow bounds refuse an operand that the wide ones admit.

* `after`, `trace`: a machine that takes inputs in turn.
* `Expr.eval_wider`, `Interpreter.run_wider`: one evaluation and one run under both bounds.
* `Interpreter.run_wider_ne_iff`: when the outcomes of a run differ.
* `runs_agree_within_bounds`: two sessions side by side.
-/

namespace Reckon

/-! ## Machines -/

section Machine

variable {σ α β : Type} (step : σ → α → β × σ)

/-- The state of a machine behind a list of inputs. -/
def after (s : σ) (inputs : List α) : σ :=
  inputs.foldl (fun s a => (step s a).2) s

/-- What a machine answers to each input in turn, with its state behind the answer. -/
def trace (s : σ) : List α → List (β × σ)
  | [] => []
  | a :: inputs => step s a :: trace (step s a).2 inputs

theorem after_nil (s : σ) : after step s [] = s :=
  rfl

theorem after_cons (s : σ) (a : α) (inputs : List α) :
    after step s (a :: inputs) = after step (step s a).2 inputs :=
  rfl

theorem after_append (s : σ) (front back : List α) :
    after step s (front ++ back) = after step (after step s front) back :=
  List.foldl_append

theorem after_take_succ (s : σ) {inputs : List α} {n : Nat} {a : α} (h : inputs[n]? = some a) :
    after step s (inputs.take (n + 1)) = (step (after step s (inputs.take n)) a).2 := by
  rw [List.take_add_one, h, after_append]
  rfl

theorem getElem?_trace (s : σ) (inputs : List α) (n : Nat) :
    (trace step s inputs)[n]? = inputs[n]?.map (step (after step s (inputs.take n))) := by
  induction inputs generalizing s n with
  | nil => rfl
  | cons a inputs ih =>
    cases n with
    | zero => rfl
    | succ n => exact ih (step s a).2 n

theorem getElem?_trace_eq_some {step : σ → α → β × σ} {s : σ} {inputs : List α} {n : Nat}
    {answer : β × σ} :
    (trace step s inputs)[n]? = some answer ↔
      ∃ a, inputs[n]? = some a ∧ step (after step s (inputs.take n)) a = answer := by
  rw [getElem?_trace, Option.map_eq_some_iff]

end Machine

/-! ## Failures and bounds -/

/-- The first bounds admit no more than the second. -/
instance : LE Limits :=
  ⟨fun narrow wide => narrow.maxFactorial ≤ wide.maxFactorial ∧
    narrow.maxExponent ≤ wide.maxExponent⟩

instance (narrow wide : Limits) : Decidable (narrow ≤ wide) :=
  inferInstanceAs (Decidable (_ ∧ _))

namespace EvalError

/-- The failure of an operand that is out of bounds. -/
def TooLarge : EvalError → Prop
  | exponentTooLarge _ _ | factorialTooLarge _ _ => True
  | _ => False

/-- The failure of an operand that is out of other bounds and within these. -/
def AdmittedBy (limits : Limits) : EvalError → Prop
  | exponentTooLarge exponent _ => exponent ≤ limits.maxExponent.toNat
  | factorialTooLarge operand _ => operand ≤ limits.maxFactorial.toNat
  | _ => False

/-- The failure with the bound of these limits in place of the one that it names. -/
def under (limits : Limits) : EvalError → EvalError
  | exponentTooLarge exponent _ => exponentTooLarge exponent limits.maxExponent.toNat
  | factorialTooLarge operand _ => factorialTooLarge operand limits.maxFactorial.toNat
  | err => err

theorem under_of_not_tooLarge {limits : Limits} {err : EvalError} (h : ¬ err.TooLarge) :
    err.under limits = err := by
  cases err with
  | exponentTooLarge | factorialTooLarge => exact (h trivial).elim
  | _ => rfl

theorem tooLarge_of_admittedBy {limits : Limits} {err : EvalError} (h : err.AdmittedBy limits) :
    err.TooLarge := by
  cases err with
  | exponentTooLarge | factorialTooLarge => trivial
  | _ => exact h

@[simp] theorem under_under (limits : Limits) (err : EvalError) :
    (err.under limits).under limits = err.under limits := by
  cases err <;> rfl

/-- Whether an operand is admitted does not depend on the bound that its failure names. -/
@[simp] theorem admittedBy_under (limits other : Limits) (err : EvalError) :
    (err.under other).AdmittedBy limits ↔ err.AdmittedBy limits := by
  cases err <;> rfl

end EvalError

/-! ## Operators -/

section Bounds

variable {narrow wide : Limits}

theorem Limits.maxFactorial_le (h : narrow ≤ wide) :
    narrow.maxFactorial.toNat ≤ wide.maxFactorial.toNat :=
  UInt64.le_iff_toNat_le.mp h.1

theorem Limits.maxExponent_le (h : narrow ≤ wide) :
    narrow.maxExponent.toNat ≤ wide.maxExponent.toNat :=
  UInt32.le_iff_toNat_le.mp h.2

/-- A bound is checked under both limits, and what the narrow one refuses the wide one refuses. -/
theorem bounded_wider {bound bound' : Nat} {n value : Int} {refusal : Nat → EvalError}
    (hle : bound ≤ bound') (hrefused : bound < n → bound' < n)
    (hunder : (refusal bound).under wide = refusal bound') :
    (if bound' < n then .error (refusal bound') else .ok value) =
      (if bound < n then .error (refusal bound) else .ok value : Except EvalError Int).mapError
        (EvalError.under wide) := by
  by_cases hlarge : bound < n
  · rw [if_pos hlarge, if_pos (hrefused hlarge), ← hunder]
    rfl
  · have hsmall : ¬ bound' < n := by omega
    rw [if_neg hlarge, if_neg hsmall]
    rfl

/-- A prefix operator has under wider bounds the value that it has, or the failure unless the
operand is admitted now. -/
theorem UnaryOp.apply_wider (h : narrow ≤ wide) (op : UnaryOp) (n : Int)
    (hrefused : ∀ err, op.apply narrow n = .error err → ¬ err.AdmittedBy wide) :
    op.apply wide n = (op.apply narrow n).mapError (EvalError.under wide) := by
  cases op with
  | plus | minus => rfl
  | factorial =>
    simp only [apply, applyFactorial_eq] at hrefused ⊢
    split
    · rfl
    · rename_i hneg
      simp only [hneg, if_false] at hrefused
      refine bounded_wider (Limits.maxFactorial_le h) (fun hlarge => ?_) rfl
      exact Int.not_le.mp (hrefused _ (if_pos hlarge))

theorem BinaryOp.apply_wider (h : narrow ≤ wide) (op : BinaryOp) (a b : Int)
    (hrefused : ∀ err, op.apply narrow a b = .error err → ¬ err.AdmittedBy wide) :
    op.apply wide a b = (op.apply narrow a b).mapError (EvalError.under wide) := by
  cases op with
  | add | sub | mul => rfl
  | div | mod =>
    simp only [apply]
    split <;> rfl
  | pow =>
    simp only [apply, applyPower_eq] at hrefused ⊢
    -- the closed forms stand in front of the bound
    split
    · rfl
    split
    · rfl
    split
    · rfl
    split
    · rfl
    rename_i hneg hzero hone hminus
    simp only [hneg, hzero, hone, hminus, if_false] at hrefused
    refine bounded_wider (Limits.maxExponent_le h) (fun hlarge => ?_) rfl
    exact Int.not_le.mp (hrefused _ (if_pos hlarge))

/-- An operator refuses no operand that its bounds admit. -/
theorem UnaryOp.not_admittedBy {limits : Limits} {op : UnaryOp} {n : Int} {err : EvalError}
    (h : op.apply limits n = .error err) : ¬ err.AdmittedBy limits := by
  cases op with
  | plus | minus => cases h
  | factorial =>
    simp only [apply, applyFactorial_eq] at h
    split at h
    · cases h
      exact id
    split at h
    · rename_i hlarge
      cases h
      exact Int.not_le.mpr hlarge
    · cases h

theorem BinaryOp.not_admittedBy {limits : Limits} {op : BinaryOp} {a b : Int} {err : EvalError}
    (h : op.apply limits a b = .error err) : ¬ err.AdmittedBy limits := by
  cases op with
  | add | sub | mul => cases h
  | div | mod =>
    simp only [apply] at h
    split at h <;> cases h
    exact id
  | pow =>
    simp only [apply, applyPower_eq] at h
    split at h
    · cases h
      exact id
    split at h
    · cases h
    split at h
    · cases h
    split at h
    · cases h
    split at h
    · rename_i hlarge
      cases h
      exact Int.not_le.mpr hlarge
    · cases h

/-! ## Evaluation -/

namespace Expr

/-- An evaluation under the narrow bounds is one under the wide bounds, unless the operand that it
fails for is admitted there. -/
theorem eval_wider (h : narrow ≤ wide) (e : Expr) (s : Store)
    (hrefused : ∀ err, (e.eval narrow s).1 = .error err → ¬ err.AdmittedBy wide) :
    e.eval wide s = ((e.eval narrow s).1.mapError (EvalError.under wide), (e.eval narrow s).2) := by
  have hvalue : ∀ (n : Int) (err : EvalError), Except.ok n = .error err → ¬ err.AdmittedBy wide := by
    intro n err hok
    cases hok
  induction e generalizing s with
  | number n => rfl
  | var name =>
    simp only [eval]
    split <;> rfl
  | unary op operand ih =>
    have hoperand := ih s
    rcases hn : operand.eval narrow s with ⟨err | n, s'⟩
    · rw [hn] at hoperand
      rw [eval_unary_error hn] at hrefused ⊢
      exact eval_unary_error (hoperand hrefused)
    · rw [hn] at hoperand
      rw [eval_unary_ok hn] at hrefused ⊢
      rw [eval_unary_ok (hoperand (hvalue n)), op.apply_wider h n hrefused]
  | binary op left right ihl ihr =>
    have hleft := ihl s
    rcases hl : left.eval narrow s with ⟨err | a, s'⟩
    · rw [hl] at hleft
      rw [eval_binary_left_error hl] at hrefused ⊢
      exact eval_binary_left_error (hleft hrefused)
    · rw [hl] at hleft
      have hright := ihr s'
      rcases hr : right.eval narrow s' with ⟨err | b, s''⟩
      · rw [hr] at hright
        rw [eval_binary_right_error hl hr] at hrefused ⊢
        exact eval_binary_right_error (hleft (hvalue a)) (hright hrefused)
      · rw [hr] at hright
        rw [eval_binary_ok hl hr] at hrefused ⊢
        rw [eval_binary_ok (hleft (hvalue a)) (hright (hvalue b)), op.apply_wider h a b hrefused]
  | assign name value ih =>
    have hassigned := ih s
    rcases hn : value.eval narrow s with ⟨err | n, s'⟩
    · rw [hn] at hassigned
      rw [eval_assign_error hn] at hrefused ⊢
      exact eval_assign_error (hassigned hrefused)
    · rw [hn] at hassigned
      rw [eval_assign_ok hn]
      exact eval_assign_ok (hassigned (hvalue n))

theorem eval_not_admittedBy {limits : Limits} {e : Expr} {s : Store} {err : EvalError}
    (h : (e.eval limits s).1 = .error err) : ¬ err.AdmittedBy limits := by
  induction e generalizing s with
  | number n => cases h
  | var name =>
    simp only [eval] at h
    split at h <;> cases h
    exact id
  | unary op operand ih =>
    rcases hn : operand.eval limits s with ⟨err' | n, s'⟩
    · rw [eval_unary_error hn] at h
      exact ih (s := s) (by rw [hn]; exact h)
    · rw [eval_unary_ok hn] at h
      exact op.not_admittedBy h
  | binary op left right ihl ihr =>
    rcases hl : left.eval limits s with ⟨err' | a, s'⟩
    · rw [eval_binary_left_error hl] at h
      exact ihl (s := s) (by rw [hl]; exact h)
    · rcases hr : right.eval limits s' with ⟨err' | b, s''⟩
      · rw [eval_binary_right_error hl hr] at h
        exact ihr (s := s') (by rw [hr]; exact h)
      · rw [eval_binary_ok hl hr] at h
        exact op.not_admittedBy h
  | assign name value ih =>
    rcases hn : value.eval limits s with ⟨err' | n, s'⟩
    · rw [eval_assign_error hn] at h
      exact ih (s := s) (by rw [hn]; exact h)
    · rw [eval_assign_ok hn] at h
      cases h

end Expr

/-! ## Runs -/

/-- The failure with the bound of these limits in place of the one that it names. -/
def Failure.under (limits : Limits) : Failure → Failure
  | .eval err => .eval (err.under limits)
  | failure => failure

@[simp] theorem Failure.under_under (limits : Limits) (failure : Failure) :
    (failure.under limits).under limits = failure.under limits := by
  cases failure <;> simp [under]

/-- Reading a text does not evaluate it. -/
theorem Stmt.parse_ne_eval (source : String) (err : EvalError) :
    Stmt.parse source ≠ .error (.eval err) := by
  unfold Stmt.parse
  split
  · exact nofun
  · cases Stmt.ofTokens _ <;> exact nofun

namespace Interpreter

theorem run_of_parse_expr {i : Interpreter} {source : String} {e : Expr}
    (h : Stmt.parse source = .ok (.expr e)) :
    i.run source =
      (((e.eval i.limits i.store).1.map .int).mapError .eval,
        ⟨i.limits, (e.eval i.limits i.store).2⟩) := by
  simp only [run, h, execute, evaluate]

theorem run_wider {i : Interpreter} (h : i.limits ≤ wide) (source : String)
    (hrefused : ∀ err, (i.run source).1 = .error (.eval err) → ¬ err.AdmittedBy wide) :
    run ⟨wide, i.store⟩ source =
      ((i.run source).1.mapError (Failure.under wide), ⟨wide, (i.run source).2.store⟩) := by
  cases hparse : Stmt.parse source with
  | error failure =>
    rw [run_of_parse_error hparse, run_of_parse_error hparse]
    cases failure with
    | lex | parse => rfl
    | eval err => exact (Stmt.parse_ne_eval source err hparse).elim
  | ok stmt =>
    cases stmt with
    | render e =>
      rw [run_of_parse_render hparse, run_of_parse_render hparse]
      rfl
    | expr e =>
      rw [run_of_parse_expr hparse] at hrefused
      have heval := e.eval_wider h i.store fun err herr => hrefused err (by rw [herr]; rfl)
      rw [run_of_parse_expr hparse, run_of_parse_expr hparse, heval]
      cases (e.eval i.limits i.store).1 <;> rfl

theorem run_not_admittedBy {i : Interpreter} {source : String} {err : EvalError}
    (h : (i.run source).1 = .error (.eval err)) : ¬ err.AdmittedBy i.limits := by
  cases hparse : Stmt.parse source with
  | error failure =>
    rw [run_of_parse_error hparse] at h
    cases h
    exact (Stmt.parse_ne_eval source err hparse).elim
  | ok stmt =>
    cases stmt with
    | render e =>
      rw [run_of_parse_render hparse] at h
      cases h
    | expr e =>
      rw [run_of_parse_expr hparse] at h
      apply e.eval_not_admittedBy (s := i.store)
      cases hr : (e.eval i.limits i.store).1 with
      | error err' =>
        rw [hr] at h
        cases h
        rfl
      | ok n =>
        rw [hr] at h
        cases h

theorem after_limits (i : Interpreter) (sources : List String) :
    (after run i sources).limits = i.limits := by
  induction sources generalizing i with
  | nil => rfl
  | cons source sources ih => exact (ih (i.run source).2).trans (i.run_limits source)

end Interpreter

/-! ## Sessions -/

/-- The outcome is the failure of an operand that is out of bounds. -/
def FailsTooLarge (outcome : Except Failure Value) : Prop :=
  ∃ err, outcome = .error (.eval err) ∧ err.TooLarge

/-- The texts of a session are run in turn: the outcome of each, with the interpreter behind it. -/
def Interpreter.runs (i : Interpreter) (sources : List String) :
    List (Except Failure Value × Interpreter) :=
  trace run i sources

/-- None of the first steps of a session, `n` in number, fails for an operand out of bounds. -/
def Interpreter.WithinBounds (i : Interpreter) (sources : List String) (n : Nat) : Prop :=
  ∀ m < n, ∀ a, (i.runs sources)[m]? = some a → ¬ FailsTooLarge a.1

theorem mapError_under_of_not_failsTooLarge {limits : Limits} {outcome : Except Failure Value}
    (h : ¬ FailsTooLarge outcome) : outcome.mapError (Failure.under limits) = outcome := by
  cases outcome with
  | ok value => rfl
  | error failure =>
    cases failure with
    | lex | parse => rfl
    | eval err =>
      have herr : ¬ err.TooLarge := fun hlarge => h ⟨err, rfl, hlarge⟩
      exact congrArg (Except.error ∘ Failure.eval) (EvalError.under_of_not_tooLarge herr)

theorem Interpreter.run_wider_of_not_failsTooLarge {i : Interpreter} (h : i.limits ≤ wide)
    {source : String} (hok : ¬ FailsTooLarge (i.run source).1) :
    run ⟨wide, i.store⟩ source = ((i.run source).1, ⟨wide, (i.run source).2.store⟩) := by
  rw [run_wider h source, mapError_under_of_not_failsTooLarge hok]
  intro err herr hadmitted
  exact hok ⟨err, herr, EvalError.tooLarge_of_admittedBy hadmitted⟩

/-- The outcomes of a run under both bounds, but for the bound that a failure names, differ exactly
if the narrow bounds refuse an operand that the wide ones admit. -/
theorem Interpreter.run_wider_ne_iff {i : Interpreter} (h : i.limits ≤ wide) (source : String) :
    (run ⟨wide, i.store⟩ source).1.mapError (Failure.under wide) ≠
        (i.run source).1.mapError (Failure.under wide) ↔
      ∃ err, (i.run source).1 = .error (.eval err) ∧ err.AdmittedBy wide := by
  constructor
  · intro hne
    apply Classical.byContradiction
    intro hnone
    apply hne
    rw [run_wider h source fun err herr hadmitted => hnone ⟨err, herr, hadmitted⟩]
    cases (i.run source).1 with
    | ok value => rfl
    | error failure => exact congrArg Except.error (failure.under_under wide)
  · rintro ⟨err, herr, hadmitted⟩ heq
    rw [herr] at heq
    -- the wide run would refuse the same operand
    cases hwide : (run ⟨wide, i.store⟩ source).1 with
    | ok value =>
      rw [hwide] at heq
      cases heq
    | error failure =>
      rw [hwide] at heq
      have hfailure : failure.under wide = .eval (err.under wide) := Except.error.inj heq
      cases failure with
      | lex | parse => cases hfailure
      | eval err' =>
        have herr' : err'.under wide = err.under wide := Failure.eval.inj hfailure
        apply run_not_admittedBy hwide
        rw [← EvalError.admittedBy_under wide wide err', herr', EvalError.admittedBy_under]
        exact hadmitted

/-- As long as the narrow bounds have refused no operand, two sessions have the same bindings. -/
theorem Interpreter.after_wider {i : Interpreter} (h : i.limits ≤ wide) {sources : List String}
    {n : Nat} (hbefore : i.WithinBounds sources n) :
    after run ⟨wide, i.store⟩ (sources.take n) =
      ⟨wide, (after run i (sources.take n)).store⟩ := by
  induction n with
  | zero => rfl
  | succ n ih =>
    have hrest := ih fun m hm => hbefore m (by omega)
    cases hsource : sources[n]? with
    | none =>
      have hlength := List.getElem?_eq_none_iff.mp hsource
      rw [List.take_of_length_le (by omega)] at hrest ⊢
      exact hrest
    | some source =>
      have hok := hbefore n (by omega) _ (getElem?_trace_eq_some.mpr ⟨source, hsource, rfl⟩)
      rw [after_take_succ _ _ hsource, after_take_succ _ _ hsource, hrest,
        run_wider_of_not_failsTooLarge (by rwa [after_limits]) hok]

/-- What the wide bounds make of the step behind such a beginning. -/
theorem Interpreter.runs_wider {i : Interpreter} (h : i.limits ≤ wide) {sources : List String}
    {n : Nat} (hbefore : i.WithinBounds sources n) {a : Except Failure Value × Interpreter}
    (ha : (i.runs sources)[n]? = some a) :
    ∃ (j : Interpreter) (source : String), j.limits = i.limits ∧ j.run source = a ∧
      (runs ⟨wide, i.store⟩ sources)[n]? = some (run ⟨wide, j.store⟩ source) := by
  obtain ⟨source, hsource, hrun⟩ := getElem?_trace_eq_some.mp ha
  refine ⟨after run i (sources.take n), source, after_limits i _, hrun, ?_⟩
  rw [runs, getElem?_trace, after_wider h hbefore, hsource]
  rfl

end Bounds

/-- **Bounds only narrow what is accepted, over whole sessions.** The same texts are run from the
same store under narrow and under wide bounds. Up to the first step at which the narrow bounds
refuse an operand, every step has the same outcome and leaves the same bindings. The outcomes of
that step, but for the bound that a failure names, differ exactly if the wide bounds admit the
operand. -/
theorem runs_agree_within_bounds (narrow wide : Limits) (h : narrow ≤ wide) (s : Store)
    (sources : List String) :
    (∀ n, Interpreter.WithinBounds ⟨narrow, s⟩ sources (n + 1) →
      (Interpreter.runs ⟨wide, s⟩ sources)[n]? =
        (Interpreter.runs ⟨narrow, s⟩ sources)[n]?.map fun a => (a.1, ⟨wide, a.2.store⟩)) ∧
    ∀ n a, Interpreter.WithinBounds ⟨narrow, s⟩ sources n →
      (Interpreter.runs ⟨narrow, s⟩ sources)[n]? = some a →
      ∃ b, (Interpreter.runs ⟨wide, s⟩ sources)[n]? = some b ∧
        (b.1.mapError (Failure.under wide) ≠ a.1.mapError (Failure.under wide) ↔
          ∃ err, a.1 = .error (.eval err) ∧ err.TooLarge ∧ err.AdmittedBy wide) := by
  constructor
  · intro n hbefore
    cases ha : (Interpreter.runs ⟨narrow, s⟩ sources)[n]? with
    | none =>
      rw [Interpreter.runs, getElem?_trace, Option.map_eq_none_iff] at ha
      rw [Interpreter.runs, getElem?_trace, ha]
      rfl
    | some a =>
      obtain ⟨j, source, hj, rfl, hwide⟩ := Interpreter.runs_wider h
        (fun m hm => hbefore m (by omega)) ha
      rw [hwide, Interpreter.run_wider_of_not_failsTooLarge (hj ▸ h) (hbefore n (by omega) _ ha)]
      rfl
  · intro n a hbefore ha
    obtain ⟨j, source, hj, rfl, hwide⟩ := Interpreter.runs_wider h hbefore ha
    refine ⟨_, hwide, (Interpreter.run_wider_ne_iff (hj ▸ h) source).trans ?_⟩
    constructor
    · rintro ⟨err, herr, hadmitted⟩
      exact ⟨err, herr, EvalError.tooLarge_of_admittedBy hadmitted, hadmitted⟩
    · rintro ⟨err, herr, -, hadmitted⟩
      exact ⟨err, herr, hadmitted⟩

/-- Under the bound 3 the second text of a session is refused that the bound 4 admits. -/
theorem runs_differ_at_factorial :
    (⟨3, 10⟩ : Limits) ≤ ⟨4, 10⟩ ∧
    Interpreter.WithinBounds ⟨⟨3, 10⟩, ∅⟩ ["x = 4", "!x + 1"] 1 ∧
    (Interpreter.runs ⟨⟨4, 10⟩, ∅⟩ ["x = 4", "!x + 1"])[0]? =
      (Interpreter.runs ⟨⟨3, 10⟩, ∅⟩ ["x = 4", "!x + 1"])[0]?.map
        (fun a => (a.1, ⟨⟨4, 10⟩, a.2.store⟩)) ∧
    ∃ a b, (Interpreter.runs ⟨⟨3, 10⟩, ∅⟩ ["x = 4", "!x + 1"])[1]? = some a ∧
      a.1 = .error (.eval (.factorialTooLarge 4 3)) ∧
      (Interpreter.runs ⟨⟨4, 10⟩, ∅⟩ ["x = 4", "!x + 1"])[1]? = some b ∧
      b.1.mapError (Failure.under ⟨4, 10⟩) ≠ a.1.mapError (Failure.under ⟨4, 10⟩) := by
  have hassign : Stmt.parse "x = 4" = .ok (.expr (.assign "x" (.number 4))) :=
    toOption_eq_some.mp (by decide +kernel)
  have hsum : Stmt.parse "!x + 1" =
      .ok (.expr (.binary .add (.unary .factorial (.var "x")) (.number 1))) :=
    toOption_eq_some.mp (by decide +kernel)
  have hfirst : Interpreter.run ⟨⟨3, 10⟩, ∅⟩ "x = 4" =
      (.ok (.int 4), ⟨⟨3, 10⟩, (∅ : Store).assign "x" 4⟩) := by
    rw [Interpreter.run_of_parse_expr hassign]
    rfl
  have hsecond : ((Interpreter.run ⟨⟨3, 10⟩, ∅⟩ "x = 4").2.run "!x + 1").1 =
      .error (.eval (.factorialTooLarge 4 3)) := by
    rw [hfirst, Interpreter.run_of_parse_expr hsum]
    rfl
  have hle : (⟨3, 10⟩ : Limits) ≤ ⟨4, 10⟩ := by decide
  have hwithin : Interpreter.WithinBounds ⟨⟨3, 10⟩, ∅⟩ ["x = 4", "!x + 1"] 1 := by
    intro m hm a ha
    obtain rfl : m = 0 := by omega
    obtain rfl := Option.some.inj ha
    rintro ⟨err, herr, -⟩
    rw [hfirst] at herr
    cases herr
  obtain ⟨hsame, hdiffer⟩ := runs_agree_within_bounds ⟨3, 10⟩ ⟨4, 10⟩ hle ∅ ["x = 4", "!x + 1"]
  obtain ⟨b, hb, hne⟩ := hdiffer 1 _ hwithin rfl
  refine ⟨hle, hwithin, hsame 0 hwithin, _, b, rfl, hsecond, hb, hne.mpr ?_⟩
  exact ⟨_, hsecond, trivial, (by decide : (4 : Int) ≤ 4)⟩

end Reckon
