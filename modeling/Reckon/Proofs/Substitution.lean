import Reckon.Proofs.Atomicity

/-!
# Splitting an expression by an intermediate variable

A part of an expression can be assigned to a variable first, which is then read in place of the
part. Nothing else can be told apart: reading a variable that is bound never fails, and neither does
the part again, so operands fail in the same order and for the same reason.

* `Expr.eval_subst_of_assignFree`: reading `e` in place of a variable that has the value of `e`.
* `eval_split`: both evaluations, with the store behind them.
-/

namespace Reckon

namespace Expr

/-- The expression with `e` in place of every read of the variable `x`. -/
def subst (c : Expr) (x : String) (e : Expr) : Expr :=
  match c with
  | number n => number n
  | var name => if name = x then e else var name
  | unary op operand => unary op (operand.subst x e)
  | binary op left right => binary op (left.subst x e) (right.subst x e)
  | assign name value => assign name (value.subst x e)

variable {x : String} {e : Expr}

theorem AssignFree.subst {c : Expr} (hc : c.AssignFree) (he : e.AssignFree) :
    (c.subst x e).AssignFree := by
  induction c with
  | number n => trivial
  | var name =>
    rw [Expr.subst]
    split
    · exact he
    · trivial
  | unary op operand ih => exact ih hc
  | binary op left right ihl ihr => exact ⟨ihl hc.1, ihr hc.2⟩
  | assign name value => exact hc.elim

theorem subst_assigns (names : List String) (c : Expr) :
    (assigns names c).subst x e = assigns names (c.subst x e) := by
  induction names with
  | nil => rfl
  | cons name names ih => rw [assigns, Expr.subst, ih, assigns]

/-- With the value of `e` in a variable, reading the variable gives what reading `e` gives. -/
theorem eval_subst_of_assignFree {limits : Limits} {s : Store} {v : Int} {c : Expr}
    (hc : c.AssignFree) (he : e.eval limits s = (.ok v, s)) :
    (c.subst x e).eval limits s = ((c.eval limits (s.assign x v)).1, s) := by
  induction c with
  | number n => rfl
  | var name =>
    by_cases hname : name = x
    · simp only [Expr.subst, hname, if_true, he, eval, Store.get?_assign_self]
    · simp only [Expr.subst, hname, if_false, eval, Store.get?_assign_of_ne _ _ hname]
      split <;> rfl
  | unary op operand ih =>
    have hoperand := ih hc
    rcases hn : operand.eval limits (s.assign x v) with ⟨err | n, s'⟩
    · rw [hn] at hoperand
      rw [Expr.subst, eval_unary_error hn, eval_unary_error hoperand]
    · rw [hn] at hoperand
      rw [Expr.subst, eval_unary_ok hn, eval_unary_ok hoperand]
  | binary op left right ihl ihr =>
    have hleft := ihl hc.1
    have hright := ihr hc.2
    -- the left operand leaves the store as it was, in which the right one is evaluated
    have hs := eval_store_of_assignFree limits hc.1 (s.assign x v)
    rcases hl : left.eval limits (s.assign x v) with ⟨err | a, s'⟩
    · rw [hl] at hleft
      rw [Expr.subst, eval_binary_left_error hl, eval_binary_left_error hleft]
    · rw [hl] at hleft hs
      obtain rfl : s' = s.assign x v := hs
      rcases hr : right.eval limits (s.assign x v) with ⟨err | b, s''⟩
      · rw [hr] at hright
        rw [Expr.subst, eval_binary_right_error hl hr, eval_binary_right_error hleft hright]
      · rw [hr] at hright
        rw [Expr.subst, eval_binary_ok hl hr, eval_binary_ok hleft hright]
  | assign name value => exact hc.elim

/-- An assignment of an expression without assignments, by the evaluation of that expression. -/
theorem eval_of_eval_assign {limits : Limits} {s s' : Store} {v : Int} (he : e.AssignFree)
    (h : (assign x e).eval limits s = (.ok v, s')) :
    e.eval limits s = (.ok v, s) ∧ s' = s.assign x v := by
  have hs := eval_store_of_assignFree limits he s
  rcases hr : e.eval limits s with ⟨err | n, t⟩
  · rw [eval_assign_error hr] at h
    cases h
  · rw [eval_assign_ok hr] at h
    rw [hr] at hs
    cases h
    obtain rfl : t = s := hs
    exact ⟨rfl, rfl⟩

end Expr

/-- **An intermediate variable changes no result.** `x = e` has the value `v`, and behind it a chain
of assignments in front of an expression is evaluated, in the one case with `x` and in the other, in
the store before, with `e` in place of `x`. Both have the same value or the same failure, and leave
the same values in all variables but `x`. If the chain does not assign to `x` itself, `x` still has
the value `v` in the one case, and no more than that sets the two stores apart.

Nothing is asked of `x`: it may be read in `e`, whose variables are those of the store before. -/
theorem eval_split (limits : Limits) (s s' : Store) (x : String) (v : Int) (e : Expr)
    (names : List String) (body : Expr) (he : e.AssignFree) (hbody : body.AssignFree)
    (h : (Expr.assign x e).eval limits s = (.ok v, s')) :
    ((Expr.assigns names body).eval limits s').1 =
      (((Expr.assigns names body).subst x e).eval limits s).1 ∧
    (∀ y, y ≠ x → ((Expr.assigns names body).eval limits s').2.get? y =
      (((Expr.assigns names body).subst x e).eval limits s).2.get? y) ∧
    (x ∉ names → ((Expr.assigns names body).eval limits s').2 =
      (((Expr.assigns names body).subst x e).eval limits s).2.assign x v) := by
  obtain ⟨hv, rfl⟩ := Expr.eval_of_eval_assign he h
  rw [Expr.subst_assigns, Expr.eval_assigns limits names hbody,
    Expr.eval_assigns limits names (hbody.subst he), Expr.eval_subst_of_assignFree hbody hv]
  cases (body.eval limits (s.assign x v)).1 with
  | error err => exact ⟨rfl, fun y hy => s.get?_assign_of_ne v hy, fun _ => rfl⟩
  | ok n =>
    refine ⟨rfl, fun y hy => ?_, fun hx => Store.ext_get? fun y => ?_⟩
    · simp only [Store.get?_assignAll, Store.get?_assign_of_ne s v hy]
    · simp only [Store.get?_assignAll, Store.get?_assign]
      by_cases hy : y = x
      · simp [hy, hx]
      · simp [hy]

/-- With `y` at 3, `t = y + 1` and then `z = t / (t - 4)` divides by zero, and so does
`z = (y + 1) / (y + 1 - 4)` at once; the first leaves `t` behind it. -/
theorem eval_split_zero_divisor :
    (Expr.assign "t" (.binary .add (.var "y") (.number 1))).eval {} ((∅ : Store).assign "y" 3) =
      (.ok 4, ((∅ : Store).assign "y" 3).assign "t" 4) ∧
    (((Expr.assigns ["z"] (.binary .div (.var "t") (.binary .sub (.var "t") (.number 4)))).subst "t"
      (.binary .add (.var "y") (.number 1))).eval {} ((∅ : Store).assign "y" 3)).1 =
      .error .divisionByZero ∧
    ((Expr.assigns ["z"] (.binary .div (.var "t") (.binary .sub (.var "t") (.number 4)))).eval {}
      (((∅ : Store).assign "y" 3).assign "t" 4)).2.get? "t" = some 4 := by
  have h : (Expr.assign "t" (.binary .add (.var "y") (.number 1))).eval {}
      ((∅ : Store).assign "y" 3) = (.ok 4, ((∅ : Store).assign "y" 3).assign "t" 4) := rfl
  obtain ⟨hresult, -, hstore⟩ := eval_split {} _ _ "t" 4
    (.binary .add (.var "y") (.number 1)) ["z"]
    (.binary .div (.var "t") (.binary .sub (.var "t") (.number 4))) ⟨trivial, trivial⟩
    ⟨trivial, trivial, trivial⟩ h
  refine ⟨h, hresult.symm.trans rfl, ?_⟩
  rw [hstore (by decide), Store.get?_assign_self]

end Reckon
