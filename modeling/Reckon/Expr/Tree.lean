import Reckon.Expr
import Reckon.Text.Decimal

/-!
# Drawing an expression

An expression is drawn as a tree with one line per node, a parent above its children. A line starts
with one guide cell per ancestor: a bar where the ancestor has a later sibling, else blanks. Then
come a branch, a corner for a last child and a tee for any other, and the label of the node. The
root counts as a last child.
-/

namespace Reckon.Expr

/-- What the line of a node says about it. -/
def label : Expr → String
  | number n => "NUMBER(" ++ Decimal.text n ++ ")"
  | var name => "VARIABLE(" ++ name ++ ")"
  | unary op _ => "UNARY_OP(" ++ op.symbol ++ ")"
  | binary op _ _ => "BINARY_OP(" ++ op.symbol ++ ")"
  | assign name _ => "ASSIGNMENT(" ++ name ++ ")"

/-- The branch in front of a label. -/
def branch (last : Bool) : String :=
  if last then "└── " else "├── "

/-- The guide cell that a node puts in front of the lines of its descendants. -/
def guide (last : Bool) : String :=
  if last then "    " else "│   "

/-- The lines of a node and its descendants, each with the guides of the node's ancestors. -/
def lines (guides : String) (last : Bool) (e : Expr) : List String :=
  (guides ++ branch last ++ e.label) ::
    match e with
    | number _ | var _ => []
    | unary _ operand => lines (guides ++ guide last) true operand
    | binary _ left right =>
      lines (guides ++ guide last) false left ++ lines (guides ++ guide last) true right
    | assign _ value => lines (guides ++ guide last) true value

/-- The drawing of an expression, without a final newline. -/
def draw (e : Expr) : String :=
  "\n".intercalate (lines "" true e)

end Reckon.Expr
