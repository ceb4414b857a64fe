/-!
# Expressions and statements

The abstract form of the language. An expression computes one integer and may bind names on the
way; a statement either evaluates an expression or asks for a drawing of it.
-/

namespace Reckon

/-- Signs that stand before their operand. -/
inductive UnaryOp where
  | plus
  | minus
  | factorial
  deriving DecidableEq, Repr, Inhabited

/-- Signs that stand between their operands. -/
inductive BinaryOp where
  | add
  | sub
  | mul
  | div
  | mod
  | pow
  deriving DecidableEq, Repr, Inhabited

namespace UnaryOp

def symbol : UnaryOp → String
  | plus => "+"
  | minus => "-"
  | factorial => "!"

end UnaryOp

namespace BinaryOp

def symbol : BinaryOp → String
  | add => "+"
  | sub => "-"
  | mul => "*"
  | div => "/"
  | mod => "%"
  | pow => "^"

/-- How tightly an operator binds its operands. All of them associate to the left. -/
def precedence : BinaryOp → Nat
  | add | sub => 1
  | mul | div | mod => 2
  | pow => 3

end BinaryOp

inductive Expr where
  | number (value : Int)
  | var (name : String)
  | unary (op : UnaryOp) (operand : Expr)
  | binary (op : BinaryOp) (left right : Expr)
  | assign (name : String) (value : Expr)
  deriving DecidableEq, Repr, Inhabited

inductive Stmt where
  /-- Evaluate the expression. -/
  | expr (body : Expr)
  /-- Draw the expression instead of evaluating it. -/
  | render (body : Expr)
  deriving DecidableEq, Repr, Inhabited

/-- The expression of a statement of either form. -/
def Stmt.body : Stmt → Expr
  | .expr e => e
  | .render e => e

end Reckon
