import Reckon.Cursor
import Reckon.Expr

/-!
# Reading statements

Tokens are read by recursive descent with one token in sight:

    statement      := "render" "(" assignment ")" | assignment
    assignment     := additive ( "=" assignment )?
    additive       := multiplicative ( ("+"|"-") multiplicative )*
    multiplicative := power ( ("*"|"/"|"%") power )*
    power          := unary ( "^" unary )*
    unary          := ("+"|"-"|"!") unary | primary
    primary        := NUMBER | IDENTIFIER | "(" additive ")"

Every binary operator associates to the left, `^` included, and only a variable can stand left of
`=`. Nesting is bounded: a group, a prefix sign, a chained assignment and each operator of a chain
take one of `maxNesting` levels. The readers below carry the number of levels still to be had, their
*room*, and recurse on it; so they end on every list of tokens, also on one without an end mark. A
reading that fails is a `Halt`: the error together with the place of the token that raised it.
-/

namespace Reckon

/-- The number of nesting levels that a statement may use. -/
def maxNesting : Nat := 512

/-- What the grammar wanted in place of the token in sight. -/
inductive Expected where
  | expression
  | token (kind : Token.Kind)
  deriving DecidableEq, Repr

/-- The reason why a list of tokens is no statement, and the place it concerns. -/
inductive ParseError where
  | unexpectedToken (expected : Expected) (found : Token.Kind) (span : Span)
  | unexpectedEnd (expected : Expected) (span : Span)
  | invalidTarget (span : Span)
  | trailingTokens (found : Token.Kind) (span : Span)
  | nestingTooDeep (limit : Nat) (span : Span)
  deriving DecidableEq, Repr

/-- How a reading ends early. -/
structure Halt where
  error : ParseError
  /-- The place whose token in sight raised the error. -/
  place : Cursor
  deriving DecidableEq, Repr

namespace Token.Kind

/-- The operator of a sign that stands before its operand. -/
def unaryOp? : Token.Kind → Option UnaryOp
  | plus => some .plus
  | minus => some .minus
  | factorial => some .factorial
  | _ => none

/-- The operator of a sign that stands between its operands. -/
def binaryOp? : Token.Kind → Option BinaryOp
  | plus => some .add
  | minus => some .sub
  | times => some .mul
  | divide => some .div
  | modulo => some .mod
  | power => some .pow
  | _ => none

end Token.Kind

namespace Cursor

/-- The error for the token in sight where the grammar wanted something else. -/
def unexpected (c : Cursor) (expected : Expected) : Halt :=
  match c.kind with
  | .eof => ⟨.unexpectedEnd expected c.current.span, c⟩
  | found => ⟨.unexpectedToken expected found c.current.span, c⟩

/-- The error for a token that would open one level too many. -/
def tooDeep (c : Cursor) : Halt :=
  ⟨.nestingTooDeep maxNesting c.current.span, c⟩

/-- Moves past a token of the given kind. -/
def expect (c : Cursor) (kind : Token.Kind) : Except Halt Cursor :=
  if c.kind = kind then .ok c.advance else .error (c.unexpected (.token kind))

end Cursor

namespace Parse

mutual

/-- Reads an operand: prefix signs, then a numeral, a name or a group. -/
def operand (room : Nat) (c : Cursor) : Except Halt (Expr × Cursor) :=
  match c.kind.unaryOp? with
  | some op =>
    match room with
    | 0 => .error c.tooDeep
    | room + 1 => do
      let (e, c) ← operand room c.advance
      return (.unary op e, c)
  | none =>
    match c.kind with
    | .number => .ok (.number (c.current.value?.getD 0), c.advance)
    | .identifier => .ok (.var c.current.text, c.advance)
    | .leftParen =>
      match room with
      | 0 => .error c.tooDeep
      | room + 1 => do
        let (first, c) ← operand room c.advance
        let (e, c) ← chain room 0 first c
        let c ← c.expect .rightParen
        return (e, c)
    | _ => .error (c.unexpected .expression)

/-- Goes on from a first operand with the operators that bind at least as tightly as `least`, each
with its right operand. An operator takes a level that its chain does not give back. -/
def chain (room least : Nat) (left : Expr) (c : Cursor) : Except Halt (Expr × Cursor) :=
  match c.kind.binaryOp? with
  | some op =>
    if op.precedence < least then .ok (left, c)
    else
      match room with
      | 0 => .error c.tooDeep
      | room + 1 => do
        let (first, c) ← operand room c.advance
        let (right, c) ← chain room (op.precedence + 1) first c
        chain room least (.binary op left right) c
  | none => .ok (left, c)

end

/-- Reads an operand and the chain of operators, at least as tight as `least`, that follows it. -/
def expression (room least : Nat) (c : Cursor) : Except Halt (Expr × Cursor) := do
  let (first, c) ← operand room c
  chain room least first c

/-- Reads an expression, or an assignment to a variable. -/
def assignment (room : Nat) (c : Cursor) : Except Halt (Expr × Cursor) := do
  let (target, after) ← expression room 0 c
  if after.kind = .assign then
    match target with
    | .var name =>
      match room with
      | 0 => .error after.tooDeep
      | room + 1 => do
        let (value, c) ← assignment room after.advance
        return (.assign name value, c)
    | _ => .error ⟨.invalidTarget (.cover c.current.span after.previousSpan), after⟩
  else
    return (target, after)

/-- Reads a statement. -/
def statement (room : Nat) (c : Cursor) : Except Halt (Stmt × Cursor) := do
  if c.kind = .render then
    let c ← c.advance.expect .leftParen
    let (e, c) ← assignment room c
    let c ← c.expect .rightParen
    return (.render e, c)
  else
    let (e, c) ← assignment room c
    return (.expr e, c)

end Parse

namespace Stmt

/-- Reads a list of tokens up to its end mark. -/
def read (tokens : List Token) : Except Halt Stmt := do
  let (s, c) ← Parse.statement maxNesting (.start tokens)
  if c.kind = .eof then
    return s
  else
    .error ⟨.trailingTokens c.kind c.current.span, c⟩

/-- The statement that a list of tokens spells, up to its end mark. -/
def ofTokens (tokens : List Token) : Except ParseError Stmt :=
  (read tokens).mapError Halt.error

end Stmt

end Reckon
