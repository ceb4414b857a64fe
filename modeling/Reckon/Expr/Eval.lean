import Reckon.Arithmetic
import Reckon.Store

/-!
# Evaluation

An expression is evaluated in a store, left operand before right operand, and operands before the
operator. An assignment binds its name as soon as its value is known. The store is threaded through
a failure as well: what was bound before it stays bound.
-/

namespace Reckon.Expr

/-- The value of an expression or the first failure, and the store afterwards. -/
def eval (limits : Limits) (e : Expr) (s : Store) : Except EvalError Int × Store :=
  match e with
  | number n => (.ok n, s)
  | var name =>
    match s.get? name with
    | some n => (.ok n, s)
    | none => (.error (.undefinedVariable name), s)
  | unary op operand =>
    match eval limits operand s with
    | (.ok n, s) => (op.apply limits n, s)
    | (.error err, s) => (.error err, s)
  | binary op left right =>
    match eval limits left s with
    | (.error err, s) => (.error err, s)
    | (.ok a, s) =>
      match eval limits right s with
      | (.error err, s) => (.error err, s)
      | (.ok b, s) => (op.apply limits a b, s)
  | assign name value =>
    match eval limits value s with
    | (.ok n, s) => (.ok n, s.assign name n)
    | (.error err, s) => (.error err, s)

section

variable {limits : Limits} {s s' s'' : Store} {err : EvalError} {n a b : Int}

theorem eval_unary_ok {op : UnaryOp} {operand : Expr} (h : operand.eval limits s = (.ok n, s')) :
    (unary op operand).eval limits s = (op.apply limits n, s') := by
  rw [eval, h]

theorem eval_unary_error {op : UnaryOp} {operand : Expr}
    (h : operand.eval limits s = (.error err, s')) :
    (unary op operand).eval limits s = (.error err, s') := by
  rw [eval, h]

theorem eval_binary_ok {op : BinaryOp} {left right : Expr}
    (hleft : left.eval limits s = (.ok a, s')) (hright : right.eval limits s' = (.ok b, s'')) :
    (binary op left right).eval limits s = (op.apply limits a b, s'') := by
  simp only [eval, hleft, hright]

theorem eval_binary_left_error {op : BinaryOp} {left right : Expr}
    (hleft : left.eval limits s = (.error err, s')) :
    (binary op left right).eval limits s = (.error err, s') := by
  rw [eval, hleft]

theorem eval_binary_right_error {op : BinaryOp} {left right : Expr}
    (hleft : left.eval limits s = (.ok a, s')) (hright : right.eval limits s' = (.error err, s'')) :
    (binary op left right).eval limits s = (.error err, s'') := by
  simp only [eval, hleft, hright]

theorem eval_assign_ok {name : String} {value : Expr} (h : value.eval limits s = (.ok n, s')) :
    (assign name value).eval limits s = (.ok n, s'.assign name n) := by
  rw [eval, h]

theorem eval_assign_error {name : String} {value : Expr}
    (h : value.eval limits s = (.error err, s')) :
    (assign name value).eval limits s = (.error err, s') := by
  rw [eval, h]

end

end Reckon.Expr
