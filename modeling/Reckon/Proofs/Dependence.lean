import Reckon.Proofs.Writes

/-!
# What an evaluation depends on

An evaluation looks at the store only where a variable is read. So in two stores that agree on the
variables of an expression it takes the same way, up to the same value or the same failure, and it
makes the same assignments on that way. The stores need not agree on anything else, neither before
nor behind it: a name that is not assigned to keeps what it had in each of them.

The left operand of an operator may assign to variables that the right one reads. Agreement carries
over to the right one all the same, since both evaluations of the left one make the same assignments
(`Store.AgreeOn.eval`).

* `Expr.eval_eq_of_agreeOn`: the result and the assignments.
* `Expr.mem_targets_of_mem_writes`: the names that are assigned to.
-/

namespace Reckon

/-- Each of the names has the same value in both stores, or none in both. -/
def Store.AgreeOn (names : List String) (s t : Store) : Prop :=
  ∀ name ∈ names, s.get? name = t.get? name

theorem Entries.mem_of_lookup {α : Type} {name : String} {value : α} {es : Entries α}
    (h : lookup name es = some value) : (name, value) ∈ es := by
  induction es with
  | nil => cases h
  | cons e es ih =>
    rw [lookup] at h
    split at h
    · next heq =>
      cases h
      rw [heq]
      exact List.mem_cons_self
    · exact List.mem_cons_of_mem _ (ih h)

/-- Evaluations that make the same assignments keep the agreement of their stores. -/
theorem Store.AgreeOn.eval {names : List String} {s t : Store} (h : AgreeOn names s t)
    {limits : Limits} {e : Expr} (hwrites : e.writes limits s = e.writes limits t) :
    AgreeOn names (e.eval limits s).2 (e.eval limits t).2 := by
  intro name hname
  rw [Expr.get?_eval, Expr.get?_eval, hwrites, h name hname]

namespace Expr

/-- The variables that the expression reads, wherever in it. -/
def reads : Expr → List String
  | number _ => []
  | var name => [name]
  | unary _ operand => operand.reads
  | binary _ left right => left.reads ++ right.reads
  | assign _ value => value.reads

/-- The names that the expression assigns to, wherever in it. -/
def targets : Expr → List String
  | number _ | var _ => []
  | unary _ operand => operand.targets
  | binary _ left right => left.targets ++ right.targets
  | assign name value => name :: value.targets

variable (limits : Limits) {s t : Store}

/-! The result of an evaluation and its assignments, by those of the parts. -/

theorem eval_unary_fst (op : UnaryOp) (operand : Expr) (s : Store) :
    ((unary op operand).eval limits s).1 = (operand.eval limits s).1.bind (op.apply limits) := by
  rcases h : operand.eval limits s with ⟨err | n, s'⟩
  · rw [eval_unary_error h]
    rfl
  · rw [eval_unary_ok h]
    rfl

theorem eval_binary_fst (op : BinaryOp) (left right : Expr) (s : Store) :
    ((binary op left right).eval limits s).1 =
      (left.eval limits s).1.bind fun a =>
        (right.eval limits (left.eval limits s).2).1.bind fun b => op.apply limits a b := by
  rcases h : left.eval limits s with ⟨err | a, s'⟩
  · rw [eval_binary_left_error h]
    rfl
  · rcases h' : right.eval limits s' with ⟨err | b, s''⟩
    · rw [eval_binary_right_error h h']
      rfl
    · rw [eval_binary_ok h h']
      rfl

theorem eval_assign_fst (name : String) (value : Expr) (s : Store) :
    ((assign name value).eval limits s).1 = (value.eval limits s).1 := by
  rcases h : value.eval limits s with ⟨err | n, s'⟩
  · rw [eval_assign_error h]
  · rw [eval_assign_ok h]

theorem writes_binary (op : BinaryOp) (left right : Expr) (s : Store) :
    (binary op left right).writes limits s =
      (match (left.eval limits s).1 with
        | .ok _ => right.writes limits (left.eval limits s).2
        | .error _ => []) ++ left.writes limits s := by
  rcases h : left.eval limits s with ⟨err | a, s'⟩
  · rw [writes_binary_error h]
    rfl
  · rw [writes_binary_ok h]

theorem writes_assign (name : String) (value : Expr) (s : Store) :
    (assign name value).writes limits s =
      (match (value.eval limits s).1 with
        | .ok n => [(name, n)]
        | .error _ => []) ++ value.writes limits s := by
  rcases h : value.eval limits s with ⟨err | n, s'⟩
  · rw [writes_assign_error h]
    rfl
  · rw [writes_assign_ok h]
    rfl

/-- In stores that agree on what it reads, an expression has the same value or the same failure, and
its evaluation makes the same assignments. -/
theorem eval_eq_of_agreeOn {e : Expr} (h : Store.AgreeOn e.reads s t) :
    (e.eval limits s).1 = (e.eval limits t).1 ∧ e.writes limits s = e.writes limits t := by
  induction e generalizing s t with
  | number n => exact ⟨rfl, rfl⟩
  | var name =>
    have hname : s.get? name = t.get? name := h name (List.mem_singleton_self name)
    refine ⟨?_, rfl⟩
    simp only [eval, hname]
    split <;> rfl
  | unary op operand ih =>
    obtain ⟨hresult, hwrites⟩ := ih h
    refine ⟨?_, hwrites⟩
    rw [eval_unary_fst, eval_unary_fst, hresult]
  | binary op left right ihl ihr =>
    obtain ⟨hleft, hright⟩ := List.forall_mem_append.mp h
    obtain ⟨hresult, hwrites⟩ := ihl hleft
    -- the right operand is evaluated in the stores behind the left one
    obtain ⟨hresult', hwrites'⟩ := ihr (Store.AgreeOn.eval hright hwrites)
    constructor
    · rw [eval_binary_fst, eval_binary_fst, hresult, hresult']
    · rw [writes_binary, writes_binary, hresult, hwrites, hwrites']
  | assign name value ih =>
    obtain ⟨hresult, hwrites⟩ := ih h
    constructor
    · rw [eval_assign_fst, eval_assign_fst, hresult]
    · rw [writes_assign, writes_assign, hresult, hwrites]

/-- An evaluation assigns to the targets of its expression alone. -/
theorem mem_targets_of_mem_writes {e : Expr} {w : String × Int} (h : w ∈ e.writes limits s) :
    w.1 ∈ e.targets := by
  induction e generalizing s with
  | number n => cases h
  | var name => cases h
  | unary op operand ih => exact ih h
  | binary op left right ihl ihr =>
    rw [writes_binary] at h
    rcases List.mem_append.mp h with h | h
    · split at h
      · exact List.mem_append_right _ (ihr h)
      · cases h
    · exact List.mem_append_left _ (ihl h)
  | assign name value ih =>
    rw [writes_assign] at h
    rcases List.mem_append.mp h with h | h
    · split at h
      · rw [List.mem_singleton.mp h]
        exact List.mem_cons_self
      · cases h
    · exact List.mem_cons_of_mem _ (ih h)

/-- A name that is no target keeps its value, or stays without one. -/
theorem get?_eval_of_not_mem_targets {e : Expr} {name : String} (h : name ∉ e.targets)
    (s : Store) : (e.eval limits s).2.get? name = s.get? name := by
  rw [get?_eval]
  cases hname : (e.writes limits s).lookup name with
  | none => rfl
  | some n => exact absurd (mem_targets_of_mem_writes limits (Entries.mem_of_lookup hname)) h

end Expr

/-- **An evaluation depends on the variables that it reads, and touches only those it assigns to.**
In two stores that agree on the variables of an expression, wherever its assignments stand, the
evaluations have the same value or the same failure and make the same assignments. So each name is
left as it was by both of them, or has the same value behind both of them. A name that is no target
of an assignment is left as it was. -/
theorem eval_depends_on_reads (limits : Limits) (e : Expr) (s t : Store)
    (h : Store.AgreeOn e.reads s t) :
    (e.eval limits s).1 = (e.eval limits t).1 ∧
    e.writes limits s = e.writes limits t ∧
    (∀ name,
      ((e.eval limits s).2.get? name = s.get? name ∧ (e.eval limits t).2.get? name = t.get? name) ∨
      ∃ n, (e.eval limits s).2.get? name = some n ∧ (e.eval limits t).2.get? name = some n) ∧
    ∀ name, name ∉ e.targets →
      (e.eval limits s).2.get? name = s.get? name ∧
        (e.eval limits t).2.get? name = t.get? name := by
  obtain ⟨hresult, hwrites⟩ := Expr.eval_eq_of_agreeOn limits h
  refine ⟨hresult, hwrites, fun name => ?_, fun name hname => ?_⟩
  · rw [Expr.get?_eval, Expr.get?_eval, hwrites]
    cases (e.writes limits t).lookup name with
    | none => exact .inl ⟨rfl, rfl⟩
    | some n => exact .inr ⟨n, rfl, rfl⟩
  · exact ⟨Expr.get?_eval_of_not_mem_targets limits hname s,
      Expr.get?_eval_of_not_mem_targets limits hname t⟩

/-- `(x = y) / (y - 3)` -/
def dividedBinding : Expr :=
  .binary .div (.assign "x" (.var "y")) (.binary .sub (.var "y") (.number 3))

/-- With `y` at 3 the division fails behind the assignment, whatever else is bound. -/
theorem eval_depends_on_reads_dividedBinding :
    ∃ s t : Store, Store.AgreeOn dividedBinding.reads s t ∧
      s.get? "x" = some 9 ∧ t.get? "x" = none ∧ s.get? "z" = some 7 ∧ t.get? "z" = none ∧
      (dividedBinding.eval {} s).1 = .error .divisionByZero ∧
      (dividedBinding.eval {} t).1 = .error .divisionByZero ∧
      (dividedBinding.eval {} s).2.get? "x" = some 3 ∧
      (dividedBinding.eval {} t).2.get? "x" = some 3 ∧
      (dividedBinding.eval {} s).2.get? "z" = some 7 ∧
      (dividedBinding.eval {} t).2.get? "z" = none := by
  have hagree : Store.AgreeOn dividedBinding.reads
      ((((∅ : Store).assign "y" 3).assign "x" 9).assign "z" 7) ((∅ : Store).assign "y" 3) := by
    intro name hname
    have hy : name = "y" := by simpa [dividedBinding, Expr.reads] using hname
    rw [hy]
    rfl
  obtain ⟨hresult, -, hname, hframe⟩ := eval_depends_on_reads {} dividedBinding _ _ hagree
  obtain ⟨hzs, hzt⟩ := hframe "z" (by decide)
  refine ⟨_, _, hagree, rfl, rfl, rfl, rfl, hresult.trans rfl, rfl, ?_, rfl, hzs, hzt⟩
  rcases hname "x" with ⟨-, hx⟩ | ⟨n, hxs, hxt⟩
  · cases hx
  · exact hxs.trans hxt.symm

end Reckon
