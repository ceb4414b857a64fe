import Reckon.Arithmetic
import Reckon.Stmt.Parser
import Reckon.Text.Decimal
import Reckon.Token.Lexer

/-!
# Failures and their diagnostics

A text can fail in three ways: it has no tokens, its tokens are no statement, or the statement has
no value. Each cause has a message and a code, some have advice, and those that concern a place in
the text have a label there.

* `Stmt.outcome?` reads tokens as a statement, with the place of an error measured in bytes.
* `Stmt.parse` reads a text as a statement.
* `Failure.report` writes a failure as one line of JSON for other programs.
-/

namespace Reckon

/-- A place in the source with a remark on it. -/
structure Label where
  span : Span
  remark : String
  deriving DecidableEq, Repr

/-- The reason why a text has no value. -/
inductive Failure where
  | lex (cause : LexError)
  | parse (cause : ParseError)
  | eval (cause : EvalError)
  deriving DecidableEq, Repr

namespace LexError

def message : LexError → String
  | unexpectedCharacter c position =>
    "Unexpected character `" ++ String.singleton c ++ "` at position " ++ Decimal.natText position

def code : LexError → String
  | unexpectedCharacter _ _ => "lex::unexpected_character"

def label : LexError → Label
  | unexpectedCharacter c position =>
    ⟨⟨position, position + c.utf8Size⟩, "not part of any token"⟩

end LexError

namespace Expected

/-- How a message names what was wanted. -/
def text : Expected → String
  | expression => "expression"
  | token kind => "`" ++ kind.symbol ++ "`"

end Expected

namespace ParseError

def message : ParseError → String
  | unexpectedToken expected found _ =>
    "Unexpected token: expected " ++ expected.text ++ ", found " ++ found.symbol
  | unexpectedEnd expected _ => "Unexpected end of input: expected " ++ expected.text
  | invalidTarget _ => "Invalid assignment target: only a variable can appear left of `=`"
  | trailingTokens found _ => "Unexpected " ++ found.symbol ++ " after end of statement"
  | nestingTooDeep limit _ =>
    "Expression nested too deeply: more than " ++ Decimal.natText limit ++ " levels"

def code : ParseError → String
  | unexpectedToken .. => "parse::unexpected_token"
  | unexpectedEnd .. => "parse::unexpected_eof"
  | invalidTarget _ => "parse::invalid_assignment_target"
  | trailingTokens .. => "parse::trailing_tokens"
  | nestingTooDeep .. => "parse::nesting_too_deep"

def help? : ParseError → Option String
  | unexpectedToken .. | unexpectedEnd .. => none
  | invalidTarget _ => some "assign to a plain name, e.g. `x = 5`"
  | trailingTokens .. => some "each input holds exactly one expression or assignment"
  | nestingTooDeep .. => some "split the expression using intermediate variables"

/-- The place that the error concerns. -/
def span : ParseError → Span
  | unexpectedToken _ _ s | unexpectedEnd _ s | invalidTarget s | trailingTokens _ s
  | nestingTooDeep _ s => s

def remark : ParseError → String
  | unexpectedToken .. => "unexpected token here"
  | unexpectedEnd .. => "expected more tokens"
  | invalidTarget _ => "cannot assign to this expression"
  | trailingTokens .. => "statement already ended"
  | nestingTooDeep .. => "nesting limit reached here"

def label (e : ParseError) : Label :=
  ⟨e.span, e.remark⟩

end ParseError

namespace EvalError

def message : EvalError → String
  | undefinedVariable name => "Undefined variable `" ++ name ++ "`"
  | divisionByZero => "Division by zero"
  | moduloByZero => "Modulo by zero"
  | negativeFactorial n => "Factorial of negative number " ++ Decimal.text n
  | negativeExponent n => "Negative exponent " ++ Decimal.text n ++ " is not supported for integers"
  | exponentTooLarge n limit =>
    "Exponent " ++ Decimal.text n ++ " exceeds the limit of " ++ Decimal.natText limit
  | factorialTooLarge n limit =>
    "Factorial operand " ++ Decimal.text n ++ " exceeds the limit of " ++ Decimal.natText limit

def code : EvalError → String
  | undefinedVariable _ => "eval::undefined_variable"
  | divisionByZero => "eval::division_by_zero"
  | moduloByZero => "eval::modulo_by_zero"
  | negativeFactorial _ => "eval::negative_factorial"
  | negativeExponent _ => "eval::negative_exponent"
  | exponentTooLarge .. => "eval::exponent_too_large"
  | factorialTooLarge .. => "eval::factorial_too_large"

def help? : EvalError → Option String
  | undefinedVariable _ => some "assign a value to it before reading it"
  | _ => none

end EvalError

namespace Failure

def message : Failure → String
  | lex e => e.message
  | parse e => e.message
  | eval e => e.message

def code : Failure → String
  | lex e => e.code
  | parse e => e.code
  | eval e => e.code

def help? : Failure → Option String
  | lex _ => none
  | parse e => e.help?
  | eval e => e.help?

/-- The label of a failure that concerns a place in the text. -/
def label? : Failure → Option Label
  | lex e => some e.label
  | parse e => some e.label
  | eval _ => none

/-- A report escapes quotes, backslashes and the five named control characters, and no others. -/
def escape (c : Char) : List Char :=
  match c with
  | '\\' => ['\\', '\\']
  | '"' => ['\\', '"']
  | '\r' => ['\\', 'r']
  | '\n' => ['\\', 'n']
  | '\t' => ['\\', 't']
  | '\x08' => ['\\', 'b']
  | '\x0c' => ['\\', 'f']
  | c => [c]

/-- A text between quotes. -/
def quote (s : String) : String :=
  "\"" ++ String.ofList (s.toList.flatMap escape) ++ "\""

/-- The report on a failure in a text with a given name. A failure without a place names no text. -/
def report (f : Failure) (name : String) : String :=
  let help := match f.help? with
    | some help => "\"help\": " ++ quote help ++ ","
    | none => ""
  let filename := match f.label? with
    | some _ => name
    | none => ""
  let labels := match f.label? with
    | some ⟨span, remark⟩ =>
      "\x7b\"label\": " ++ quote remark ++ ",\"span\": \x7b\"offset\": " ++
        Decimal.natText span.start ++ ",\"length\": " ++ Decimal.natText span.length ++ "\x7d\x7d"
    | none => ""
  "\x7b\"message\": " ++ quote f.message ++ ",\"code\": " ++ quote f.code ++
    ",\"severity\": \"error\",\"causes\": []," ++ help ++ "\"filename\": " ++ quote filename ++
    ",\"labels\": [" ++ labels ++ "],\"related\": []\x7d"

end Failure

/-- The statement that a text spells. -/
def Stmt.parse (source : String) : Except Failure Stmt :=
  match Token.lex source with
  | .error e => .error (.lex e)
  | .ok tokens => (Stmt.ofTokens tokens).mapError .parse

end Reckon
