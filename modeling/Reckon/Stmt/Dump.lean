import Reckon.Expr
import Reckon.Json.Printer

/-!
# Statements as JSON

Every node is an object with one member, named for the form of the node. Integers are written as
strings, since they may be of any size.
-/

namespace Reckon

/-- The name of a prefix operator in a dump. -/
def UnaryOp.dumpName : UnaryOp → String
  | plus => "Plus"
  | minus => "Minus"
  | factorial => "Factorial"

/-- The name of a binary operator in a dump. -/
def BinaryOp.dumpName : BinaryOp → String
  | add => "Add"
  | sub => "Sub"
  | mul => "Mul"
  | div => "Div"
  | mod => "Mod"
  | pow => "Pow"

def Expr.toJson : Expr → Json
  | number n => .object [("Number", .string (Decimal.text n))]
  | var name => .object [("Variable", .string name)]
  | unary op operand =>
    .object [("Unary", .object [("op", .string op.dumpName), ("operand", operand.toJson)])]
  | binary op left right =>
    .object [("Binary", .object [("op", .string op.dumpName), ("left", left.toJson),
      ("right", right.toJson)])]
  | assign name value =>
    .object [("Assign", .object [("name", .string name), ("value", value.toJson)])]

def Stmt.toJson : Stmt → Json
  | expr e => .object [("Expr", e.toJson)]
  | render e => .object [("Render", e.toJson)]

/-- The dump of a statement on one line. -/
def Stmt.dump (s : Stmt) : String :=
  s.toJson.compact

end Reckon
