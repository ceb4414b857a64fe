import Reckon.Proofs.Drawing

/-!
# The layout of a drawing

Nodes are addressed by the places of the children that lead to them from the root. In the order of
these addresses a node stands before its children, and a child with all that is below it before the
next one. A drawing has one line per node in this order. The line tells the whole way to its node: a
cell for each ancestor, which shows whether more children follow at that depth, then a connector,
which shows it for the node itself.

* `Expr.node?`, `Expr.nodes`: the node at an address, and all nodes with their addresses in order.
* `Expr.row`: what the line of a node should be, by the addresses around it.
* `Expr.map_toList_lines`: the lines that are drawn, for a node that need not be the root.
* `draw_layout`: the lines of a drawing.
-/

namespace Reckon

namespace Expr

/-! ## Addresses -/

/-- The operands of a node, from left to right. -/
def children : Expr → List Expr
  | number _ | var _ => []
  | unary _ operand => [operand]
  | binary _ left right => [left, right]
  | assign _ value => [value]

/-- The node at an address: the places of the children that lead to it. -/
def node? : Expr → List Nat → Option Expr
  | e, [] => some e
  | e, i :: address => e.children[i]?.bind fun child => child.node? address

/-- Nodes below a child, with addresses that start at its parent. -/
def underChild (i : Nat) (nodes : List (List Nat × Expr)) : List (List Nat × Expr) :=
  nodes.map fun node => (i :: node.1, node.2)

/-- All nodes with their addresses, a node before its children and these from left to right. -/
def nodes (e : Expr) : List (List Nat × Expr) :=
  ([], e) ::
    match e with
    | number _ | var _ => []
    | unary _ operand => underChild 0 operand.nodes
    | binary _ left right => underChild 0 left.nodes ++ underChild 1 right.nodes
    | assign _ value => underChild 0 value.nodes

variable {e child node : Expr} {i j : Nat} {address : List Nat}

theorem node?_cons (h : e.children[i]? = some child) :
    e.node? (i :: address) = child.node? address := by
  rw [node?, h]
  rfl

/-- Every node but the root stands in a place of its parent. -/
theorem exists_parent (h : e.node? (address ++ [i]) = some node) :
    ∃ parent, e.node? address = some parent ∧ i < parent.children.length := by
  induction address generalizing e with
  | nil =>
    obtain ⟨child, hchild, -⟩ := Option.bind_eq_some_iff.mp h
    exact ⟨e, rfl, (List.getElem?_eq_some_iff.mp hchild).1⟩
  | cons j address ih =>
    obtain ⟨child, hchild, h⟩ := Option.bind_eq_some_iff.mp h
    rw [node?_cons hchild]
    exact ih h

theorem mem_underChild {nodes : List (List Nat × Expr)} :
    (j :: address, node) ∈ underChild i nodes ↔ j = i ∧ (address, node) ∈ nodes := by
  simp only [underChild, List.mem_map, Prod.mk.injEq, List.cons.injEq]
  constructor
  · rintro ⟨⟨a, n⟩, hmem, ⟨rfl, rfl⟩, rfl⟩
    exact ⟨rfl, hmem⟩
  · rintro ⟨rfl, hmem⟩
    exact ⟨_, hmem, ⟨rfl, rfl⟩, rfl⟩

theorem nil_not_mem_underChild {nodes : List (List Nat × Expr)} :
    ([], node) ∉ underChild i nodes := by
  simp [underChild]

/-- The root is the only node with the empty address. -/
theorem mem_nodes_nil : ([], node) ∈ e.nodes ↔ node = e := by
  cases e <;> simp [nodes, nil_not_mem_underChild]

theorem mem_nodes_cons :
    (i :: address, node) ∈ e.nodes ↔
      ∃ child, e.children[i]? = some child ∧ (address, node) ∈ child.nodes := by
  cases e with
  | number n => simp [nodes, children]
  | var name => simp [nodes, children]
  | unary op operand => cases i <;> simp [nodes, children, mem_underChild]
  | binary op left right => rcases i with - | - | i <;> simp [nodes, children, mem_underChild]
  | assign name value => cases i <;> simp [nodes, children, mem_underChild]

/-- Every node is listed, with the address that leads to it. -/
theorem mem_nodes : (address, node) ∈ e.nodes ↔ e.node? address = some node := by
  induction address generalizing e with
  | nil => rw [mem_nodes_nil, node?, Option.some.injEq, eq_comm]
  | cons i address ih =>
    rw [mem_nodes_cons, node?, Option.bind_eq_some_iff]
    simp only [ih]

theorem pairwise_underChild {nodes : List (List Nat × Expr)}
    (h : nodes.Pairwise fun a b => a.1 < b.1) :
    (underChild i nodes).Pairwise fun a b => a.1 < b.1 := by
  rw [underChild, List.pairwise_map]
  exact h.imp fun hlt => List.cons_lt_cons_iff.mpr (.inr ⟨rfl, hlt⟩)

theorem nil_lt_of_mem_underChild {nodes : List (List Nat × Expr)} {n : List Nat × Expr}
    (h : n ∈ underChild i nodes) : [] < n.1 := by
  obtain ⟨m, -, rfl⟩ := List.mem_map.mp h
  exact List.nil_lt_cons _ _

/-- Nodes are listed in the order of their addresses, so each of them once. -/
theorem pairwise_nodes (e : Expr) : e.nodes.Pairwise fun a b => a.1 < b.1 := by
  induction e with
  | number n => exact List.pairwise_singleton _ _
  | var name => exact List.pairwise_singleton _ _
  | unary op operand ih =>
    exact List.pairwise_cons.mpr ⟨fun n hn => nil_lt_of_mem_underChild hn, pairwise_underChild ih⟩
  | binary op left right ihl ihr =>
    refine List.pairwise_cons.mpr ⟨fun n hn => ?_, ?_⟩
    · rcases List.mem_append.mp hn with hn | hn <;> exact nil_lt_of_mem_underChild hn
    · refine List.pairwise_append.mpr ⟨pairwise_underChild ihl, pairwise_underChild ihr, ?_⟩
      intro a ha b hb
      obtain ⟨m, -, rfl⟩ := List.mem_map.mp ha
      obtain ⟨n, -, rfl⟩ := List.mem_map.mp hb
      exact List.cons_lt_cons_iff.mpr (.inl Nat.zero_lt_one)
  | assign name value ih =>
    exact List.pairwise_cons.mpr ⟨fun n hn => nil_lt_of_mem_underChild hn, pairwise_underChild ih⟩

/-! ## Rows -/

/-- The node at an address is followed by another child of its parent. -/
def HasLaterSibling (e : Expr) (address : List Nat) : Prop :=
  ∃ i ∈ address.getLast?, ∃ parent ∈ e.node? address.dropLast, i + 1 < parent.children.length

/-- The node at an address is the last child of its parent. -/
def IsLastChild (e : Expr) (address : List Nat) : Prop :=
  ∃ i ∈ address.getLast?, ∃ parent ∈ e.node? address.dropLast, i + 1 = parent.children.length

instance (e : Expr) (address : List Nat) : Decidable (e.HasLaterSibling address) :=
  inferInstanceAs (Decidable (∃ i ∈ address.getLast?, ∃ parent ∈ e.node? address.dropLast,
    i + 1 < parent.children.length))

instance (e : Expr) (address : List Nat) : Decidable (e.IsLastChild address) :=
  inferInstanceAs (Decidable (∃ i ∈ address.getLast?, ∃ parent ∈ e.node? address.dropLast,
    i + 1 = parent.children.length))

/-- The cell for the ancestor at depth `k` in the line of a node. -/
def cell (e : Expr) (address : List Nat) (k : Nat) : List Char :=
  if e.HasLaterSibling (address.take k) then "│   ".toList else "    ".toList

/-- What stands between the cells and the label in the line of a node. -/
def connector (e : Expr) (address : List Nat) : List Char :=
  if address = [] ∨ e.IsLastChild address then "└── ".toList else "├── ".toList

/-- The line of the node at an address. -/
def row (e : Expr) (address : List Nat) (node : Expr) : List Char :=
  (List.range address.length).flatMap (e.cell address) ++ e.connector address ++ node.label.toList

theorem not_hasLaterSibling_nil : ¬ e.HasLaterSibling [] := by
  rintro ⟨i, hi, -⟩
  cases hi

theorem hasLaterSibling_singleton : e.HasLaterSibling [i] ↔ i + 1 < e.children.length := by
  simp [HasLaterSibling, node?]

theorem hasLaterSibling_cons (h : e.children[i]? = some child) (hne : address ≠ []) :
    e.HasLaterSibling (i :: address) ↔ child.HasLaterSibling address := by
  obtain ⟨j, address, rfl⟩ := List.exists_cons_of_ne_nil hne
  rw [HasLaterSibling, HasLaterSibling, List.getLast?_cons_cons, List.dropLast_cons_cons,
    node?_cons h]

/-! ## Drawn lines -/

/-- A node is drawn as a last child if no sibling follows it. Of the node at the top it is given. -/
def drawnLast (last : Bool) (e : Expr) : List Nat → Bool
  | [] => last
  | i :: address => !decide (e.HasLaterSibling (i :: address))

/-- The line of the node at an address below `e`, without what `e` takes over from above. -/
def rowFrom (last : Bool) (e : Expr) (address : List Nat) (node : Expr) : List Char :=
  (List.range address.length).flatMap
      (fun k => (guide (drawnLast last e (address.take k))).toList) ++
    (branch (drawnLast last e address)).toList ++ node.label.toList

variable {last : Bool}

theorem drawnLast_cons (h : e.children[i]? = some child) :
    drawnLast last e (i :: address) =
      drawnLast (decide (i + 1 = e.children.length)) child address := by
  obtain ⟨hi, -⟩ := List.getElem?_eq_some_iff.mp h
  cases address with
  | nil =>
    have hend : ¬ i + 1 < e.children.length ↔ i + 1 = e.children.length := by omega
    simp only [drawnLast, hasLaterSibling_singleton, ← decide_not, hend]
  | cons j address =>
    simp only [drawnLast, hasLaterSibling_cons h (List.cons_ne_nil j address)]

theorem toList_line (guides : String) (last : Bool) (e : Expr) :
    (guides ++ branch last ++ e.label).toList = guides.toList ++ rowFrom last e [] e := by
  simp [rowFrom, drawnLast]

/-- The line of a node starts with the cell of the node at the top and goes on as below the child
that leads to it. -/
theorem rowFrom_cons (h : e.children[i]? = some child) :
    rowFrom last e (i :: address) node =
      (guide last).toList ++ rowFrom (decide (i + 1 = e.children.length)) child address node := by
  simp only [rowFrom, List.length_cons, List.range_succ_eq_map, List.flatMap_cons,
    List.flatMap_map, List.take_zero, List.take_succ_cons, drawnLast_cons h, List.append_assoc]
  rfl

/-- The lines of the nodes below a child, if the child is drawn as it should be. -/
theorem map_toList_lines_child {isEnd : Bool} (h : e.children[i]? = some child)
    (hend : isEnd = decide (i + 1 = e.children.length))
    (ih : ∀ guides last, (lines guides last child).map String.toList =
      child.nodes.map fun n => guides.toList ++ rowFrom last child n.1 n.2)
    (guides : String) (last : Bool) :
    (lines (guides ++ guide last) isEnd child).map String.toList =
      (underChild i child.nodes).map fun n => guides.toList ++ rowFrom last e n.1 n.2 := by
  rw [ih, underChild, List.map_map]
  apply List.map_congr_left
  intro n _
  simp only [Function.comp_apply, rowFrom_cons h, ← hend, String.toList_append, List.append_assoc]

/-- The lines that are drawn for a node and what is below it. -/
theorem map_toList_lines (guides : String) (last : Bool) (e : Expr) :
    (lines guides last e).map String.toList =
      e.nodes.map fun n => guides.toList ++ rowFrom last e n.1 n.2 := by
  induction e generalizing guides last with
  | number n => exact congrArg (fun line => [line]) (toList_line guides last _)
  | var name => exact congrArg (fun line => [line]) (toList_line guides last _)
  | unary op operand ih =>
    have hchild := map_toList_lines_child (e := unary op operand) (i := 0) rfl rfl ih guides last
    exact List.cons_eq_cons.mpr ⟨toList_line guides last _, hchild⟩
  | binary op left right ihl ihr =>
    have hleft :=
      map_toList_lines_child (e := binary op left right) (i := 0) rfl rfl ihl guides last
    have hright :=
      map_toList_lines_child (e := binary op left right) (i := 1) rfl rfl ihr guides last
    refine List.cons_eq_cons.mpr ⟨toList_line guides last _, ?_⟩
    rw [List.map_append, List.map_append]
    exact (congrArg (· ++ _) hleft).trans (congrArg (_ ++ ·) hright)
  | assign name value ih =>
    have hchild := map_toList_lines_child (e := assign name value) (i := 0) rfl rfl ih guides last
    exact List.cons_eq_cons.mpr ⟨toList_line guides last _, hchild⟩

theorem drawnLast_root (e : Expr) (address : List Nat) :
    drawnLast true e address = !decide (e.HasLaterSibling address) := by
  cases address with
  | nil => simp [drawnLast, not_hasLaterSibling_nil]
  | cons i address => rfl

theorem isLastChild_iff (h : e.node? address = some node) :
    address = [] ∨ e.IsLastChild address ↔ ¬ e.HasLaterSibling address := by
  rcases List.eq_nil_or_concat address with rfl | ⟨front, i, rfl⟩
  · simp [not_hasLaterSibling_nil]
  · rw [List.concat_eq_append] at h ⊢
    obtain ⟨parent, hparent, hi⟩ := exists_parent h
    have hplace : i + 1 = parent.children.length ↔ ¬ i + 1 < parent.children.length := by omega
    simp [IsLastChild, HasLaterSibling, hparent, hplace]

/-- Below the root the lines are drawn as the addresses ask for. -/
theorem rowFrom_root (h : e.node? address = some node) :
    rowFrom true e address node = e.row address node := by
  have hcell : ∀ k, (guide (drawnLast true e (address.take k))).toList = e.cell address k := by
    intro k
    rw [drawnLast_root, cell]
    by_cases hk : e.HasLaterSibling (address.take k) <;> simp [hk, guide]
  have hconnector : (branch (drawnLast true e address)).toList = e.connector address := by
    rw [drawnLast_root, connector]
    by_cases hlater : e.HasLaterSibling address <;> simp [hlater, isLastChild_iff h, branch]
  simp only [rowFrom, row, hcell, hconnector]

theorem length_cell (e : Expr) (address : List Nat) (k : Nat) : (e.cell address k).length = 4 := by
  rw [cell]
  split <;> rfl

end Expr

/-- **The layout of a drawing.** As long as no name holds a newline, a drawing has one line for each
node, in the order of the addresses: a node before its children, and these from left to right, each
with all that is below it. The line of a node consists of a cell of four characters for each depth
above it, a connector and the label. The connector is a corner if the node is the root or a last
child, and a tee otherwise; the cell of a depth is a bar if the ancestor at that depth has a later
sibling, and blank otherwise. -/
theorem draw_layout (e : Expr) (h : e.SingleLine) :
    e.draw.toList.splitOn '\n' = e.nodes.map (fun n => e.row n.1 n.2) ∧
    (∀ address node, (address, node) ∈ e.nodes ↔ e.node? address = some node) ∧
    e.nodes.Pairwise (fun m n => m.1 < n.1) ∧
    ∀ address k, (e.cell address k).length = 4 := by
  refine ⟨?_, fun address node => Expr.mem_nodes, e.pairwise_nodes, e.length_cell⟩
  rw [h.splitOn_draw, Expr.map_toList_lines]
  apply List.map_congr_left
  intro n hn
  rw [Expr.rowFrom_root (Expr.mem_nodes.mp hn)]
  rfl

/-- `x * -1 + y` -/
def productFirst : Expr :=
  .binary .add (.binary .mul (.var "x") (.unary .minus (.number 1))) (.var "y")

/-- The product is followed by `y`, which the bars below it tell; the operand of the sign is below a
last child and has none for it. -/
theorem draw_layout_productFirst :
    productFirst.SingleLine ∧
    productFirst.draw.toList.splitOn '\n' =
      ["└── BINARY_OP(+)".toList,
        "    ├── BINARY_OP(*)".toList,
        "    │   ├── VARIABLE(x)".toList,
        "    │   └── UNARY_OP(-)".toList,
        "    │       └── NUMBER(1)".toList,
        "    └── VARIABLE(y)".toList] := by
  have h : productFirst.SingleLine := by decide
  refine ⟨h, (draw_layout productFirst h).1.trans ?_⟩
  decide +kernel

end Reckon
