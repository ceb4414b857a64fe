import Reckon.Expr.Tree
import Reckon.Proofs.Printing

/-!
# What a drawing tells

A drawing determines the expression it is drawn from. The lines of the text are those of the nodes
as long as no name holds a newline, and the label of a node says of which form it is, so how many
children it has, whose lines stand right below it. A name may hold anything else: what looks like a
branch or a label inside a name is part of the line of its node.

* `Expr.sameNode_of_label`: the label of a node gives its form and all it holds but its children.
* `Expr.eq_of_lines_append`: lines that start with those of an expression start with those of no
  other.
* `draw_determines`: expressions that are drawn alike are equal.
-/

namespace Reckon

theorem UnaryOp.symbol_injective {a b : UnaryOp} (h : a.symbol = b.symbol) : a = b := by
  cases a <;> cases b <;> simp [symbol] at h ⊢

theorem BinaryOp.symbol_injective {a b : BinaryOp} (h : a.symbol = b.symbol) : a = b := by
  cases a <;> cases b <;> simp [symbol] at h ⊢

namespace Expr

/-! ## Labels -/

/-- Nodes of one form that differ in their children at most. -/
inductive SameNode : Expr → Expr → Prop where
  | number (n : Int) : SameNode (number n) (number n)
  | var (name : String) : SameNode (var name) (var name)
  | unary (op : UnaryOp) (operand operand' : Expr) :
      SameNode (unary op operand) (unary op operand')
  | binary (op : BinaryOp) (left left' right right' : Expr) :
      SameNode (binary op left right) (binary op left' right')
  | assign (name : String) (value value' : Expr) :
      SameNode (assign name value) (assign name value')

/-- The label of a node gives its form and all it holds but its children. -/
theorem sameNode_of_label {e₁ e₂ : Expr} (h : e₁.label = e₂.label) : SameNode e₁ e₂ := by
  rw [← String.toList_inj] at h
  -- labels of different forms differ in their first letters
  cases e₁ with
  | number m =>
    cases e₂ with
    | number n =>
      obtain rfl := Decimal.chars_injective (by simpa [label] using h)
      exact .number m
    | _ => simp [label] at h
  | var name₁ =>
    cases e₂ with
    | var name₂ =>
      obtain rfl : name₁ = name₂ := String.toList_inj.mp (by simpa [label] using h)
      exact .var name₁
    | _ => simp [label] at h
  | unary op₁ a =>
    cases e₂ with
    | unary op₂ b =>
      obtain rfl := UnaryOp.symbol_injective (String.toList_inj.mp (by simpa [label] using h))
      exact .unary op₁ a b
    | _ => simp [label] at h
  | binary op₁ a b =>
    cases e₂ with
    | binary op₂ c d =>
      obtain rfl := BinaryOp.symbol_injective (String.toList_inj.mp (by simpa [label] using h))
      exact .binary op₁ a c b d
    | _ => simp [label] at h
  | assign name₁ a =>
    cases e₂ with
    | assign name₂ b =>
      obtain rfl : name₁ = name₂ := String.toList_inj.mp (by simpa [label] using h)
      exact .assign name₁ a b
    | _ => simp [label] at h

/-! ## Lines -/

theorem sameNode_of_lines_append {guides : String} {last : Bool} {e₁ e₂ : Expr}
    {rest₁ rest₂ : List String}
    (h : lines guides last e₁ ++ rest₁ = lines guides last e₂ ++ rest₂) : SameNode e₁ e₂ := by
  rw [lines.eq_def guides last e₁, lines.eq_def guides last e₂, List.cons_append,
    List.cons_append] at h
  exact sameNode_of_label ((String.append_right_inj _).mp (List.cons.inj h).1)

/-- Lines that start with those of an expression start with those of no other. -/
theorem eq_of_lines_append {guides : String} {last : Bool} {e₁ e₂ : Expr}
    {rest₁ rest₂ : List String}
    (h : lines guides last e₁ ++ rest₁ = lines guides last e₂ ++ rest₂) :
    e₁ = e₂ ∧ rest₁ = rest₂ := by
  -- The node takes the first line, and each child as many of the next ones as it has. Both sides
  -- have the same guides all the way, so nothing is read off them.
  induction e₁ generalizing guides last e₂ rest₁ rest₂ with
  | number n =>
    cases sameNode_of_lines_append h
    exact ⟨rfl, by simpa [lines] using h⟩
  | var name =>
    cases sameNode_of_lines_append h
    exact ⟨rfl, by simpa [lines] using h⟩
  | unary op operand ih =>
    cases sameNode_of_lines_append h
    simp only [lines, List.cons_append, List.cons.injEq, label, true_and] at h
    obtain ⟨rfl, hrest⟩ := ih h
    exact ⟨rfl, hrest⟩
  | binary op left right ihl ihr =>
    cases sameNode_of_lines_append h
    simp only [lines, List.cons_append, List.cons.injEq, label, true_and, List.append_assoc] at h
    obtain ⟨rfl, hright⟩ := ihl h
    obtain ⟨rfl, hrest⟩ := ihr hright
    exact ⟨rfl, hrest⟩
  | assign name value ih =>
    cases sameNode_of_lines_append h
    simp only [lines, List.cons_append, List.cons.injEq, label, true_and] at h
    obtain ⟨rfl, hrest⟩ := ih h
    exact ⟨rfl, hrest⟩

/-! ## The text -/

/-- The names that an expression reads or assigns to. -/
def names : Expr → List String
  | number _ => []
  | var name => [name]
  | unary _ operand => operand.names
  | binary _ left right => left.names ++ right.names
  | assign name value => name :: value.names

/-- No name holds a newline. -/
def SingleLine (e : Expr) : Prop :=
  ∀ name ∈ e.names, '\n' ∉ name.toList

instance (e : Expr) : Decidable e.SingleLine :=
  inferInstanceAs (Decidable (∀ name ∈ e.names, '\n' ∉ name.toList))

theorem SingleLine.newline_not_mem_label {e : Expr} (h : e.SingleLine) :
    '\n' ∉ e.label.toList := by
  cases e with
  | number n =>
    have hn : '\n' ∉ Decimal.chars n := fun hmem =>
      absurd (Decimal.isDigit_or_minus_of_mem_chars hmem) (by decide)
    simpa [label] using hn
  | var name => simpa [label] using h name (by simp [names])
  | unary op operand => cases op <;> simp [label, UnaryOp.symbol]
  | binary op left right => cases op <;> simp [label, BinaryOp.symbol]
  | assign name value => simpa [label] using h name (by simp [names])

theorem newline_not_mem_guides {guides : String} (hguides : '\n' ∉ guides.toList) (last : Bool) :
    '\n' ∉ (guides ++ guide last).toList := by
  have hguide : '\n' ∉ (guide last).toList := by
    cases last <;> decide
  simp [hguides, hguide]

theorem SingleLine.newline_not_mem_line {e : Expr} (h : e.SingleLine) {guides : String}
    (hguides : '\n' ∉ guides.toList) (last : Bool) :
    '\n' ∉ (guides ++ branch last ++ e.label).toList := by
  have hbranch : '\n' ∉ (branch last).toList := by
    cases last <;> decide
  simp [hguides, hbranch, h.newline_not_mem_label]

theorem SingleLine.newline_not_mem_lines {e : Expr} (h : e.SingleLine) {guides : String}
    (hguides : '\n' ∉ guides.toList) (last : Bool) :
    ∀ line ∈ lines guides last e, '\n' ∉ line.toList := by
  induction e generalizing guides last with
  | number n => exact List.forall_mem_singleton.mpr (h.newline_not_mem_line hguides last)
  | var name => exact List.forall_mem_singleton.mpr (h.newline_not_mem_line hguides last)
  | unary op operand ih =>
    refine List.forall_mem_cons.mpr ⟨h.newline_not_mem_line hguides last, ?_⟩
    exact ih h (newline_not_mem_guides hguides last) true
  | binary op left right ihl ihr =>
    have hinner := newline_not_mem_guides hguides last
    refine List.forall_mem_cons.mpr ⟨h.newline_not_mem_line hguides last, ?_⟩
    refine List.forall_mem_append.mpr ⟨ihl ?_ hinner false, ihr ?_ hinner true⟩
    · exact fun name hname => h name (List.mem_append_left _ hname)
    · exact fun name hname => h name (List.mem_append_right _ hname)
  | assign name value ih =>
    refine List.forall_mem_cons.mpr ⟨h.newline_not_mem_line hguides last, ?_⟩
    refine ih ?_ (newline_not_mem_guides hguides last) true
    exact fun name' hname => h name' (List.mem_cons_of_mem _ hname)

theorem lines_ne_nil (guides : String) (last : Bool) (e : Expr) : lines guides last e ≠ [] := by
  rw [lines.eq_def]
  exact List.cons_ne_nil _ _

/-- The text of a drawing, cut at its newlines. -/
theorem SingleLine.splitOn_draw {e : Expr} (h : e.SingleLine) :
    e.draw.toList.splitOn '\n' = (lines "" true e).map String.toList := by
  rw [draw, String.toList_intercalate]
  refine List.splitOn_intercalate '\n' ?_ (by simpa using lines_ne_nil "" true e)
  intro row hrow
  obtain ⟨line, hline, rfl⟩ := List.mem_map.mp hrow
  exact h.newline_not_mem_lines (by simp) true line hline

theorem SingleLine.eq_of_draw {e₁ e₂ : Expr} (h₁ : e₁.SingleLine) (h₂ : e₂.SingleLine)
    (h : e₁.draw = e₂.draw) : e₁ = e₂ := by
  have hlines : lines "" true e₁ = lines "" true e₂ := by
    apply (List.map_inj_right fun _ _ => String.toList_inj.mp).mp
    rw [← h₁.splitOn_draw, ← h₂.splitOn_draw, h]
  have happend : lines "" true e₁ ++ [] = lines "" true e₂ ++ [] := by
    rw [hlines]
  exact (eq_of_lines_append happend).1

/-! ## Names of the language -/

theorem newline_not_mem_name {name : String} (h : IsName name) : '\n' ∉ name.toList := by
  obtain ⟨⟨c, run, hname, hc, hrun⟩, -⟩ := h
  rw [hname, List.mem_cons, not_or]
  have hpart : ¬ Token.NamePart '\n' := by decide
  refine ⟨?_, fun hmem => hpart (hrun _ hmem)⟩
  rintro rfl
  exact hpart hc.namePart

theorem Plain.singleLine {e : Expr} (h : e.Plain) : e.SingleLine := by
  induction e with
  | number n => exact List.forall_mem_nil _
  | var name => exact List.forall_mem_singleton.mpr (newline_not_mem_name h)
  | unary op operand ih => exact ih h
  | binary op left right ihl ihr => exact List.forall_mem_append.mpr ⟨ihl h.1, ihr h.2⟩
  | assign name value => exact h.elim

theorem SourceShaped.singleLine {e : Expr} (h : e.SourceShaped) : e.SingleLine := by
  induction e with
  | assign name value ih => exact List.forall_mem_cons.mpr ⟨newline_not_mem_name h.1, ih h.2⟩
  | _ => exact Plain.singleLine h

end Expr

/-- **A drawing determines its expression**, of whatever shape it is, as long as no name holds a
newline. So statements that are read from texts are drawn alike only if their expressions are
equal. -/
theorem draw_determines :
    (∀ e₁ e₂ : Expr, e₁.SingleLine → e₂.SingleLine → (e₁.draw = e₂.draw ↔ e₁ = e₂)) ∧
    ∀ source₁ source₂ : String, ∀ s₁ s₂ : Stmt, Stmt.parse source₁ = .ok s₁ →
      Stmt.parse source₂ = .ok s₂ → (s₁.body.draw = s₂.body.draw ↔ s₁.body = s₂.body) := by
  have hdraw : ∀ e₁ e₂ : Expr, e₁.SingleLine → e₂.SingleLine → (e₁.draw = e₂.draw ↔ e₁ = e₂) :=
    fun e₁ e₂ h₁ h₂ => ⟨h₁.eq_of_draw h₂, congrArg Expr.draw⟩
  refine ⟨hdraw, fun source₁ source₂ s₁ s₂ hs₁ hs₂ => ?_⟩
  exact hdraw _ _ (Stmt.sourceShaped_of_parse hs₁).singleLine
    (Stmt.sourceShaped_of_parse hs₂).singleLine

/-- Names that hold branches and labels do not deceive. -/
theorem draw_determines_lookalike :
    (Expr.assign "x" (.var "y)    └── VARIABLE(z")).draw ≠
      (Expr.assign "x)    └── VARIABLE(y" (.var "z")).draw := by
  intro h
  have heq := (draw_determines.1 _ _ (by decide) (by decide)).mp h
  exact absurd heq (by decide)

-- with newlines in them they would
example :
    (Expr.assign "x" (.var "y)\n    └── VARIABLE(z")).draw =
      (Expr.assign "x)\n    └── VARIABLE(y" (.var "z")).draw :=
  rfl

end Reckon
