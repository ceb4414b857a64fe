import Reckon.Expr.Eval
import Reckon.Expr.Tree
import Reckon.Failure

/-!
# The interpreter

An `Interpreter` is a store of variables with the bounds on arithmetic. It runs one source text
after the other against the same store.
-/

namespace Reckon

/-- What a statement yields. -/
inductive Value where
  | int (n : Int)
  | tree (drawing : String)
  deriving DecidableEq, Repr

/-- A value as text. -/
def Value.text : Value → String
  | int n => Decimal.text n
  | tree drawing => drawing

structure Interpreter where
  limits : Limits := {}
  store : Store := ∅
  deriving Inhabited

namespace Interpreter

/-- Evaluates an expression. -/
def evaluate (i : Interpreter) (e : Expr) : Except EvalError Int × Interpreter :=
  let (result, store) := e.eval i.limits i.store
  (result, { i with store })

/-- Executes a statement. An expression to be drawn is not evaluated. -/
def execute (i : Interpreter) (s : Stmt) : Except EvalError Value × Interpreter :=
  match s with
  | .render e => (.ok (.tree e.draw), i)
  | .expr e =>
    let (result, i) := i.evaluate e
    (result.map .int, i)

/-- Reads and executes one source text. -/
def run (i : Interpreter) (source : String) : Except Failure Value × Interpreter :=
  match Stmt.parse source with
  | .error failure => (.error failure, i)
  | .ok s =>
    let (result, i) := i.execute s
    (result.mapError .eval, i)

/-- Binds a name. -/
def assign (i : Interpreter) (name : String) (n : Int) : Interpreter :=
  { i with store := i.store.assign name n }

/-- Forgets every binding. -/
def reset (i : Interpreter) : Interpreter :=
  { i with store := ∅ }

end Interpreter

end Reckon
