import Reckon.Interpreter
import Reckon.Proofs.Reading

/-!
# Runs are atomic

Evaluation threads the store through failures, so a tree with an assignment below an operator could
leave a half-made change behind. The grammar has no such trees: a statement is a chain of
assignments in front of an expression without any (`Clause.exists_assigns`). On these trees a
failure leaves the store alone, and a value is bound to the names of the chain and to no others.

* `Expr.eval_assigns`: evaluation of a chain of assignments.
* `run_atomic`: what a run does to the interpreter.
-/

namespace Reckon

namespace Expr

/-- No assignment stands in the expression. -/
def AssignFree : Expr → Prop
  | number _ | var _ => True
  | unary _ operand => operand.AssignFree
  | binary _ left right => left.AssignFree ∧ right.AssignFree
  | assign _ _ => False

/-- `x₁ = x₂ = ... = xₖ = e` -/
def assigns : List String → Expr → Expr
  | [], e => e
  | name :: names, e => .assign name (assigns names e)

/-- The names and the expression of a chain of assignments are determined by it. -/
theorem assigns_inj {names names' : List String} {e e' : Expr} (he : e.AssignFree)
    (he' : e'.AssignFree) (h : assigns names e = assigns names' e') : names = names' ∧ e = e' := by
  induction names generalizing names' with
  | nil =>
    cases names' with
    | nil => exact ⟨rfl, h⟩
    | cons name names' =>
      obtain rfl : e = .assign name (assigns names' e') := h
      exact he.elim
  | cons name names ih =>
    cases names' with
    | nil =>
      obtain rfl : .assign name (assigns names e) = e' := h
      exact he'.elim
    | cons name' names' =>
      obtain ⟨rfl, htail⟩ := Expr.assign.inj h
      obtain ⟨rfl, rfl⟩ := ih htail
      exact ⟨rfl, rfl⟩

end Expr

/-! ## The shape of what is read -/

theorem Phrase.assignFree {p n k : Nat} {ts : List Token} {e : Expr} (h : Phrase p ts e n k) :
    e.AssignFree := by
  induction h with
  | number | name => trivial
  | group _ _ _ ih | sign _ _ ih | tighter _ ih => exact ih
  | binary _ _ _ _ ihl ihr => exact ⟨ihl, ihr⟩

theorem Clause.exists_assigns {k : Nat} {ts : List Token} {e : Expr} (h : Clause ts e k) :
    ∃ names body, e = Expr.assigns names body ∧ body.AssignFree := by
  induction h with
  | value h => exact ⟨[], _, rfl, h.assignFree⟩
  | @assign _ _ _ name _ _ _ _ _ _ _ ih =>
    obtain ⟨names, body, rfl, hbody⟩ := ih
    exact ⟨name :: names, body, rfl, hbody⟩

/-- A text is read as a chain of assignments in front of an expression without assignments. -/
theorem Stmt.exists_assigns_of_parse {source : String} {s : Stmt}
    (h : Stmt.parse source = .ok s) :
    ∃ names body, s.body = Expr.assigns names body ∧ body.AssignFree := by
  unfold Stmt.parse at h
  split at h
  · cases h
  · rename_i tokens _
    obtain ⟨_, _, hbody, -⟩ := Stmt.clause_of_ofTokens (mapError_eq_ok.mp h)
    exact hbody.exists_assigns

/-! ## What evaluation does to the store -/

namespace Store

/-- Binds every name of a list to one value, the last name first. -/
def assignAll (s : Store) (names : List String) (value : Int) : Store :=
  names.foldr (fun name s => s.assign name value) s

theorem get?_assignAll (s : Store) (names : List String) (value : Int) (other : String) :
    (s.assignAll names value).get? other = if other ∈ names then some value else s.get? other := by
  induction names with
  | nil => simp [assignAll]
  | cons name names ih =>
    have hstep : s.assignAll (name :: names) value = (s.assignAll names value).assign name value :=
      rfl
    rw [hstep, get?_assign, ih]
    by_cases h : other = name <;> simp [h]

end Store

namespace Expr

variable (limits : Limits)

/-- An expression without assignments leaves the store alone, also when it fails. -/
theorem eval_store_of_assignFree {e : Expr} (h : e.AssignFree) (s : Store) :
    (e.eval limits s).2 = s := by
  induction e generalizing s with
  | number n => rfl
  | var name =>
    simp only [eval]
    split <;> rfl
  | unary op operand ih =>
    have hs := ih h s
    simp only [eval]
    split <;> simp_all
  | binary op left right ihl ihr =>
    have hl := ihl h.1 s
    have hr := ihr h.2 s
    simp only [eval]
    split
    · simp_all
    · rename_i a s' hleft
      rw [hleft] at hl
      subst hl
      split <;> simp_all
  | assign name value => exact h.elim

/-- A chain of assignments evaluates its expression once, and binds all its names or none. -/
theorem eval_assigns (names : List String) {e : Expr} (h : e.AssignFree) (s : Store) :
    (assigns names e).eval limits s =
      match (e.eval limits s).1 with
      | .ok n => (.ok n, s.assignAll names n)
      | .error err => (.error err, s) := by
  induction names with
  | nil =>
    have hs := eval_store_of_assignFree limits h s
    rw [assigns]
    cases hr : e.eval limits s with
    | mk result s' =>
      rw [hr] at hs
      subst hs
      cases result <;> rfl
  | cons name names ih =>
    rw [assigns, eval, ih]
    cases (e.eval limits s).1 <;> rfl

end Expr

/-! ## Runs -/

namespace Interpreter

theorem execute_limits (i : Interpreter) (s : Stmt) : (i.execute s).2.limits = i.limits := by
  cases s <;> rfl

theorem run_limits (i : Interpreter) (source : String) : (i.run source).2.limits = i.limits := by
  unfold run
  split
  · rfl
  · exact i.execute_limits _

/-- A text that is no statement does not touch the interpreter. -/
theorem run_of_parse_error {i : Interpreter} {source : String} {failure : Failure}
    (h : Stmt.parse source = .error failure) : i.run source = (.error failure, i) := by
  simp [run, h]

theorem run_of_parse_render {i : Interpreter} {source : String} {e : Expr}
    (h : Stmt.parse source = .ok (.render e)) : i.run source = (.ok (.tree e.draw), i) := by
  simp only [run, h, execute]
  rfl

/-- A run of an assignment chain, by the value of its expression. -/
theorem run_of_parse_assigns {i : Interpreter} {source : String} {names : List String} {e : Expr}
    (h : Stmt.parse source = .ok (.expr (Expr.assigns names e))) (he : e.AssignFree) :
    i.run source =
      match (e.eval i.limits i.store).1 with
      | .ok n => (.ok (.int n), { i with store := i.store.assignAll names n })
      | .error err => (.error (.eval err), i) := by
  simp only [run, h, execute, evaluate, Expr.eval_assigns i.limits names he i.store]
  cases (e.eval i.limits i.store).1 <;> rfl

end Interpreter

/-- **Every run is atomic and writes only its own assignment chain.** A failure and a drawing leave
the store as it was. An integer comes from a statement `x₁ = ... = xₖ = e` without assignments in
`e`; it is bound to these names, and no other name changes. The bounds never change. -/
theorem run_atomic (i : Interpreter) (source : String) :
    (i.run source).2.limits = i.limits ∧
    (∀ failure, (i.run source).1 = .error failure → (i.run source).2.store = i.store) ∧
    (∀ drawing, (i.run source).1 = .ok (.tree drawing) → (i.run source).2.store = i.store) ∧
    ∀ v, (i.run source).1 = .ok (.int v) →
      ∃ names e, Stmt.parse source = .ok (.expr (Expr.assigns names e)) ∧ e.AssignFree ∧
        (∀ x ∈ names, (i.run source).2.store.get? x = some v) ∧
        ∀ x, x ∉ names → (i.run source).2.store.get? x = i.store.get? x := by
  refine ⟨i.run_limits source, ?_⟩
  cases h : Stmt.parse source with
  | error failure =>
    rw [Interpreter.run_of_parse_error h]
    exact ⟨fun _ _ => rfl, fun _ _ => rfl, nofun⟩
  | ok s =>
    obtain ⟨names, e, hbody, he⟩ := Stmt.exists_assigns_of_parse h
    cases s with
    | render e' =>
      rw [Interpreter.run_of_parse_render h]
      exact ⟨fun _ _ => rfl, fun _ _ => rfl, nofun⟩
    | expr e' =>
      obtain rfl : e' = Expr.assigns names e := hbody
      rw [Interpreter.run_of_parse_assigns h he]
      cases hv : (e.eval i.limits i.store).1 with
      | error err => exact ⟨fun _ _ => rfl, fun _ _ => rfl, nofun⟩
      | ok n =>
        refine ⟨nofun, nofun, fun v hv => ?_⟩
        cases hv
        refine ⟨names, e, rfl, he, fun x hx => ?_, fun x hx => ?_⟩
        · simp [Store.get?_assignAll, hx]
        · simp [Store.get?_assignAll, hx]

/-- An interpreter with `x` at 6 and `z` at 3. -/
def boundTwo : Interpreter :=
  { store := ((∅ : Store).assign "x" 6).assign "z" 3 }

/-- A chain of two assignments binds both its names, also the one it reads, and leaves the third
name alone. If its expression fails nothing is bound. -/
theorem run_atomic_two_names :
    (boundTwo.run "x = y = x + 1").1 = .ok (.int 7) ∧
    (boundTwo.run "x = y = x + 1").2.store.get? "x" = some 7 ∧
    (boundTwo.run "x = y = x + 1").2.store.get? "y" = some 7 ∧
    (boundTwo.run "x = y = x + 1").2.store.get? "z" = some 3 ∧
    (boundTwo.run "x = y = x / 0").1 = .error (.eval .divisionByZero) ∧
    (boundTwo.run "x = y = x / 0").2.store = boundTwo.store := by
  have hsum : Stmt.parse "x = y = x + 1" =
      .ok (.expr (Expr.assigns ["x", "y"] (.binary .add (.var "x") (.number 1)))) :=
    toOption_eq_some.mp (by decide +kernel)
  have hquotient : Stmt.parse "x = y = x / 0" =
      .ok (.expr (Expr.assigns ["x", "y"] (.binary .div (.var "x") (.number 0)))) :=
    toOption_eq_some.mp (by decide +kernel)
  have hvalue : (boundTwo.run "x = y = x + 1").1 = .ok (.int 7) := by
    rw [Interpreter.run_of_parse_assigns hsum ⟨trivial, trivial⟩]
    rfl
  have hfailure : (boundTwo.run "x = y = x / 0").1 = .error (.eval .divisionByZero) := by
    rw [Interpreter.run_of_parse_assigns hquotient ⟨trivial, trivial⟩]
    rfl
  obtain ⟨names, e, hparse, he, hbound, hkept⟩ := (run_atomic boundTwo _).2.2.2 7 hvalue
  obtain ⟨rfl, rfl⟩ : ["x", "y"] = names ∧ .binary .add (.var "x") (.number 1) = e := by
    rw [hsum] at hparse
    exact Expr.assigns_inj ⟨trivial, trivial⟩ he (Stmt.expr.inj (Except.ok.inj hparse))
  refine ⟨hvalue, hbound "x" (by decide), hbound "y" (by decide), ?_, hfailure,
    (run_atomic boundTwo _).2.1 _ hfailure⟩
  exact hkept "z" (by decide)

end Reckon
