import Reckon.Proofs.Atomicity

/-!
# What a failed evaluation leaves behind

An assignment binds its name as soon as its value is known, and nothing is taken back when a part
evaluated later fails. So what an evaluation does to the store is told by the assignments it gets
to, whether it fails or not (`Expr.writes`). A failed evaluation leaves the store alone exactly if
these bind every name to the value it had. Where assignments stand in front of everything else, as
in the statements of the language, a failure comes before the first of them.

* `Expr.get?_eval`: the store behind an evaluation.
* `eval_error_store`: the store behind a failure.
* `failed_division_keeps_binding`: a tree whose evaluation fails and still binds a name.
-/

namespace Reckon

theorem Entries.lookup_append {α : Type} (name : String) (es fs : Entries α) :
    lookup name (es ++ fs) = (lookup name es).or (lookup name fs) := by
  induction es with
  | nil => rfl
  | cons e es ih =>
    rw [List.cons_append, lookup, lookup, ih]
    split <;> rfl

namespace Expr

variable (limits : Limits)

/-- The assignments that an evaluation gets to, with the values they bind, the latest first. -/
def writes : Expr → Store → Entries Int
  | number _, _ | var _, _ => []
  | unary _ operand, s => writes operand s
  | binary _ left right, s =>
    match left.eval limits s with
    | (.ok _, s') => writes right s' ++ writes left s
    | (.error _, _) => writes left s
  | assign name value, s =>
    match value.eval limits s with
    | (.ok n, _) => (name, n) :: writes value s
    | (.error _, _) => writes value s

variable {limits} {s s' : Store} {err : EvalError} {n : Int}

theorem writes_binary_ok {op : BinaryOp} {left right : Expr}
    (h : left.eval limits s = (.ok n, s')) :
    (binary op left right).writes limits s = right.writes limits s' ++ left.writes limits s := by
  simp only [writes, h]

theorem writes_binary_error {op : BinaryOp} {left right : Expr}
    (h : left.eval limits s = (.error err, s')) :
    (binary op left right).writes limits s = left.writes limits s := by
  simp only [writes, h]

theorem writes_assign_ok {name : String} {value : Expr} (h : value.eval limits s = (.ok n, s')) :
    (assign name value).writes limits s = (name, n) :: value.writes limits s := by
  simp only [writes, h]

theorem writes_assign_error {name : String} {value : Expr}
    (h : value.eval limits s = (.error err, s')) :
    (assign name value).writes limits s = value.writes limits s := by
  simp only [writes, h]

/-- A name has the value that was assigned to it last, or else the one it had. -/
theorem get?_eval (limits : Limits) (e : Expr) (s : Store) (name : String) :
    (e.eval limits s).2.get? name = ((e.writes limits s).lookup name).or (s.get? name) := by
  induction e generalizing s with
  | number n => rfl
  | var x =>
    simp only [eval]
    split <;> rfl
  | unary op operand ih =>
    have hoperand := ih s
    obtain ⟨r, s', hr⟩ : ∃ r s', operand.eval limits s = (r, s') := ⟨_, _, rfl⟩
    rw [hr] at hoperand
    cases r with
    | error err => rwa [eval_unary_error hr]
    | ok n => rwa [eval_unary_ok hr]
  | binary op left right ihl ihr =>
    have hleft := ihl s
    obtain ⟨r, s', hr⟩ : ∃ r s', left.eval limits s = (r, s') := ⟨_, _, rfl⟩
    rw [hr] at hleft
    cases r with
    | error err => rwa [eval_binary_left_error hr, writes_binary_error hr]
    | ok a =>
      have hright := ihr s'
      obtain ⟨r', s'', hr'⟩ : ∃ r' s'', right.eval limits s' = (r', s'') := ⟨_, _, rfl⟩
      -- what the right operand assigns comes later, so it stands in front
      rw [hr', hleft, ← Option.or_assoc, ← Entries.lookup_append] at hright
      rw [writes_binary_ok hr]
      cases r' with
      | error err => rwa [eval_binary_right_error hr hr']
      | ok b => rwa [eval_binary_ok hr hr']
  | assign x value ih =>
    have hvalue := ih s
    obtain ⟨r, s', hr⟩ : ∃ r s', value.eval limits s = (r, s') := ⟨_, _, rfl⟩
    rw [hr] at hvalue
    cases r with
    | error err => rwa [eval_assign_error hr, writes_assign_error hr]
    | ok n =>
      rw [eval_assign_ok hr, writes_assign_ok hr, Store.get?_assign, hvalue, Entries.lookup]
      split <;> rfl

/-- The store stays the same exactly if every name is bound to the value it had. -/
theorem eval_store_eq_iff (limits : Limits) (e : Expr) (s : Store) :
    (e.eval limits s).2 = s ↔
      ∀ name n, (e.writes limits s).lookup name = some n → s.get? name = some n := by
  constructor
  · intro h name n hname
    rw [← h, get?_eval, hname]
    rfl
  · intro h
    apply Store.ext_get?
    intro name
    rw [get?_eval]
    cases hname : (e.writes limits s).lookup name with
    | none => rfl
    | some n => exact (h name n hname).symm

theorem eval_store_of_assigns_error {names : List String} {body : Expr} (hbody : body.AssignFree)
    (h : ((assigns names body).eval limits s).1 = .error err) :
    ((assigns names body).eval limits s).2 = s := by
  rw [eval_assigns limits names hbody] at h ⊢
  cases hv : (body.eval limits s).1 with
  | error err => rfl
  | ok n =>
    rw [hv] at h
    cases h

end Expr

/-- **What a failed evaluation leaves behind.** The store is as it was exactly if the assignments
that were made before the failure bind every name, by the last of them, to the value it had. All
other names keep their values. A chain of assignments in front of an expression without any never
changes the store when it fails. -/
theorem eval_error_store (limits : Limits) (e : Expr) (s : Store) (err : EvalError)
    (h : (e.eval limits s).1 = .error err) :
    ((e.eval limits s).2 = s ↔
      ∀ name n, (e.writes limits s).lookup name = some n → s.get? name = some n) ∧
    (∀ name, (e.eval limits s).2.get? name =
      ((e.writes limits s).lookup name).or (s.get? name)) ∧
    ∀ names body, e = Expr.assigns names body → body.AssignFree → (e.eval limits s).2 = s := by
  refine ⟨e.eval_store_eq_iff limits s, e.get?_eval limits s, ?_⟩
  rintro names body rfl hbody
  exact Expr.eval_store_of_assigns_error hbody h

/-- `(x = 1) / 0` -/
def failedDivision : Expr :=
  .binary .div (.assign "x" (.number 1)) (.number 0)

/-- The binding is made again, so nothing changes. -/
theorem eval_error_store_rebinding :
    (failedDivision.eval {} (Store.assign ∅ "x" 1)).1 = .error .divisionByZero ∧
      (failedDivision.eval {} (Store.assign ∅ "x" 1)).2 = Store.assign ∅ "x" 1 := by
  have herror : (failedDivision.eval {} (Store.assign ∅ "x" 1)).1 = .error .divisionByZero := rfl
  refine ⟨herror, (eval_error_store {} failedDivision _ _ herror).1.mpr ?_⟩
  intro name n hname
  have hwrites : failedDivision.writes {} (Store.assign ∅ "x" 1) = [("x", 1)] := rfl
  rw [hwrites, Entries.lookup] at hname
  rw [Store.get?_assign]
  split at hname
  · next hx => rw [if_pos hx, hname]
  · cases hname

/-- The division fails, and the name on its left is bound all the same. -/
theorem failed_division_keeps_binding :
    (failedDivision.eval {} ∅).1 = .error .divisionByZero ∧
      (∅ : Store).get? "x" = none ∧ (failedDivision.eval {} ∅).2.get? "x" = some 1 ∧
      (failedDivision.eval {} ∅).2 ≠ ∅ := by
  have hbound : (failedDivision.eval {} ∅).2.get? "x" = some 1 := rfl
  refine ⟨rfl, rfl, hbound, fun h => ?_⟩
  rw [h] at hbound
  cases hbound

end Reckon
