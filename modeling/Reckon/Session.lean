import Reckon.Interpreter
import Reckon.Text.Blank
import Reckon.Text.Lines
import Reckon.Text.Typed

/-!
# Line-by-line sessions

A session reads lines from a person and answers each. A few words are commands to the session
itself; every other line is run by the interpreter.
-/

namespace Reckon.Session

/-- What a line leads to. -/
inductive Action where
  | skip
  | print (text : String)
  | quit
  deriving DecidableEq, Repr

/-- The answer to `:help`. -/
def help : String :=
  "\n".intercalate
    ["Commands:",
      "  :help, :h    Show this help",
      "  :vars        List variables",
      "  :reset       Forget all variables",
      "  exit, quit   Leave the REPL",
      "",
      "Syntax:",
      "  2 + 3 * 4          arithmetic (+ - * / % ^), / and % floor",
      "  !5                 prefix factorial",
      "  x = y = 5          assignment (right-associative)",
      "  render(2 + 3)      print the parse tree instead of evaluating"]

/-- The words that end a session, in any case of their ASCII letters. -/
def isFarewell (line : String) : Bool :=
  let lower := line.toList.map Char.toLower
  lower == "exit".toList || lower == "quit".toList

/-- The answer to `:vars`: one line per variable, in the order of the store. -/
def listing (store : Store) : String :=
  if store.isEmpty then "(no variables)"
  else "\n".intercalate (store.entries.map fun e => e.1 ++ " = " ++ Decimal.text e.2)

/-- What a run prints. -/
def answer : Except Failure Value → String
  | .ok (.int n) => "= " ++ Decimal.text n
  | .ok (.tree drawing) => drawing
  | .error failure => "Error: " ++ failure.message

/-- Handles one line. -/
def step (i : Interpreter) (line : String) : Action × Interpreter :=
  let line := Blank.trim line
  if line = "" then (.skip, i)
  else if isFarewell line then (.quit, i)
  else if line = ":help" ∨ line = ":h" then (.print help, i)
  else if line = ":vars" then (.print (listing i.store), i)
  else if line = ":reset" then (.print "Variables cleared", i.reset)
  else
    let (result, i) := i.run line
    (.print (answer result), i)

/-- What is printed before the first line. -/
def banner (version : String) : String :=
  "tally v" ++ version ++ "\nType :help for help, exit to quit\n\n"

/-- What is printed after the last line. -/
def farewell : String := "Goodbye!\n"

/-- How a session comes to its end: the input is used up, a line asks for it, a line is not UTF-8,
or a backspace in it takes back only a part of a character. -/
inductive Ending where
  | endOfInput
  | quit
  | notText
  | cutCharacter
  deriving DecidableEq, Repr

/-- What a stream of lines leads to: the answers, the interpreter afterwards, and the way the
session comes to its end. -/
structure Transcript where
  answers : List String
  interpreter : Interpreter
  ending : Ending

/-- The text of a line that is typed, in which backspaces take effect, or how the session ends at
it. -/
def typed (bytes : List UInt8) : Except Ending String :=
  match Lines.text? bytes with
  | none => .error .notText
  | some line =>
    match Typed.kept? line with
    | none => .error .cutCharacter
    | some line => .ok line

/-- Takes lines in turn, up to one that ends the session. -/
def talk (i : Interpreter) : List (List UInt8) → Transcript
  | [] => ⟨[], i, .endOfInput⟩
  | bytes :: rest =>
    match typed bytes with
    | .error ending => ⟨[], i, ending⟩
    | .ok line =>
      match step i line with
      | (.skip, i) => talk i rest
      | (.quit, i) => ⟨[], i, .quit⟩
      | (.print text, i) =>
        let t := talk i rest
        { t with answers := text :: t.answers }

/-- The text that is printed in answer to a stream of lines. -/
def Transcript.output (t : Transcript) : String :=
  String.join (t.answers.map (· ++ "\n"))

end Reckon.Session
