import Reckon.About
import Reckon.CommandLine.Argument
import Reckon.Server
import Reckon.Session
import Reckon.Settings
import Reckon.Stmt.Dump

/-!
# The command line

An invocation names one command; options may stand in front of it and after it, at most once in
either place, and the one after it counts. `Invocation.ofTexts` reads an invocation, and
`Invocation.run` is what the program does: it gives what is printed and what went wrong, if
anything.
-/

namespace Reckon.CommandLine

/-! ## Invocations -/

/-- The options of one place. -/
structure Options where
  verbose : Bool := false
  config? : Option String := none
  maxFactorial? : Option UInt64 := none
  maxExponent? : Option UInt32 := none
  deriving DecidableEq, Repr, Inhabited

inductive Command where
  | eval (expressions : List String)
  | render (expression : String)
  | tokens (expression : String)
  | ast (expression : String)
  | repl
  | serve
  | info
  deriving DecidableEq, Repr

structure Invocation where
  options : Options
  command : Command
  deriving DecidableEq, Repr

/-- Why arguments are no invocation: they ask for the version or for help, or they are wrong. -/
inductive Detour where
  | version
  /-- Help on a command, or on all of them. -/
  | help (command? : Option String)
  | usage
  deriving DecidableEq, Repr

namespace Options

/-- A number below a bound. It may have a sign, and a minus only in front of zero. -/
def number? (bound : Nat) (text : String) : Option Nat :=
  let n? := match text.toList with
    | '+' :: digits => (Decimal.natOf? digits).map Int.ofNat
    | '-' :: digits => (Decimal.natOf? digits).map fun n => -(n : Int)
    | digits => (Decimal.natOf? digits).map Int.ofNat
  match n? with
  | some n => if 0 ≤ n ∧ n < bound then some n.toNat else none
  | none => none

/-- Sets an option that is not set yet, if its value is a proper one. -/
def set? (o : Options) (parameter : Parameter) (value : String) : Option Options :=
  match parameter with
  | .config =>
    if o.config?.isSome ∨ value = "" then none else some { o with config? := some value }
  | .maxFactorial =>
    if o.maxFactorial?.isSome ∨ value.toList.head? = some '-' then none
    else (number? UInt64.size value).map fun n => { o with maxFactorial? := some (UInt64.ofNat n) }
  | .maxExponent =>
    if o.maxExponent?.isSome then none
    else (number? UInt32.size value).map fun n => { o with maxExponent? := some (UInt32.ofNat n) }

/-- The options of two places, of which those of the second count where both are given. -/
def orElse (o earlier : Options) : Options where
  verbose := o.verbose || earlier.verbose
  config? := o.config? <|> earlier.config?
  maxFactorial? := o.maxFactorial? <|> earlier.maxFactorial?
  maxExponent? := o.maxExponent? <|> earlier.maxExponent?

/-- Settings with the bounds that the options give. -/
def adjust (o : Options) (s : Settings) : Settings :=
  { s with
    limits :=
      { maxFactorial := o.maxFactorial?.getD s.limits.maxFactorial
        maxExponent := o.maxExponent?.getD s.limits.maxExponent } }

end Options

/-- The command of a name, by the words after it. -/
def Command.ofWords? (name : String) (words : List String) : Option Command :=
  match name, words with
  | "eval", e :: rest => some (.eval (e :: rest))
  | "render", [e] => some (.render e)
  | "tokens", [e] => some (.tokens e)
  | "ast", [e] => some (.ast e)
  | "repl", [] => some .repl
  | "serve", [] => some .serve
  | "info", [] => some .info
  | _, _ => none

def Command.names : List String :=
  ["eval", "render", "tokens", "ast", "repl", "serve", "info"]

/-- Whether a command takes a further word behind so many. -/
def Command.takesWord (name : String) (count : Nat) : Bool :=
  match name with
  | "eval" => true
  | "render" | "tokens" | "ast" => count == 0
  | _ => false

namespace Invocation

/-- Takes in one flag or option. -/
def addOption (o : Options) : Argument → Except Detour Options
  | .verbose => if o.verbose then .error .usage else .ok { o with verbose := true }
  | .option parameter value =>
    match o.set? parameter value with
    | some o => .ok o
    | none => .error .usage
  | .help => .error (.help none)
  | _ => .error .usage

/-- The options and words after the name of a command, behind so many words. A word that the
command does not take is wrong at once, whatever is asked for behind it. -/
def afterName (name : String) (count : Nat) (o : Options) :
    List Argument → Except Detour (Options × List String)
  | [] => .ok (o, [])
  | .word text :: rest =>
    if Command.takesWord name count then
      (afterName name (count + 1) o rest).map fun (o, words) => (o, text :: words)
    else .error .usage
  | .dashes :: rest => afterName name count o rest
  | .help :: _ => .error (.help (some name))
  | argument :: rest => do afterName name count (← addOption o argument) rest

/-- What follows the word `help`: nothing, or the name of a command. -/
def afterHelp : List Argument → Detour
  | [] => .help none
  | [.word name] => if name ∈ "help" :: Command.names then .help (some name) else .usage
  | _ => .usage

/-- An invocation from its arguments, with the options in front of the command so far. -/
def ofArguments (o : Options) : List Argument → Except Detour Invocation
  | [] => .error .usage
  | .version :: _ => .error .version
  | .word name :: rest =>
    if name = "help" then .error (afterHelp rest)
    else if name ∈ Command.names then do
      let (inner, words) ← afterName name 0 {} rest
      match Command.ofWords? name words with
      | some command => .ok ⟨inner.orElse o, command⟩
      | none => .error .usage
    else .error .usage
  | argument :: rest => do ofArguments (← addOption o argument) rest

/-- An invocation from the texts of its arguments. -/
def ofTexts (args : List String) : Except Detour Invocation :=
  ofArguments {} (Argument.ofTexts args)

end Invocation

/-! ## Running -/

/-- What went wrong. -/
inductive Problem where
  | usage
  | settings (fault : Settings.Fault)
  | expression (failure : Failure)
  /-- A tree of a statement that is a tree already was asked for. -/
  | doubleTree
  /-- A line of the input is not UTF-8. -/
  | input
  /-- A backspace in the input takes back only a part of a character. -/
  | cutCharacter

namespace Problem

/-- The status with which the program ends. -/
def exit : Problem → UInt32
  | usage => 2
  | cutCharacter => 101
  | _ => 1

def message : Problem → String
  | usage => "Invalid arguments; see --help"
  | settings fault => fault.message
  | expression failure => failure.message
  | doubleTree => "`render` already prints a tree; pass the expression on its own"
  | input => "The input is not valid UTF-8"
  | cutCharacter => "A backspace takes back only a part of a character"

/-- What went wrong in a session, by the way it came to its end. -/
def ofEnding? : Session.Ending → Option Problem
  | .notText => some input
  | .cutCharacter => some cutCharacter
  | .endOfInput | .quit => none

end Problem

/-- What the program prints, and what went wrong after that. -/
structure Outcome where
  output : String
  problem? : Option Problem := none

def Outcome.exit (o : Outcome) : UInt32 :=
  match o.problem? with
  | none => 0
  | some problem => problem.exit

/-- What the program does when no command is to be run. -/
def Detour.outcome : Detour → Outcome
  | version => { output := About.versionLine }
  | help command? => { output := About.help command? }
  | usage => { output := "", problem? := some .usage }

/-- The values of expressions that are run in turn, up to the first failure. -/
def evaluate (i : Interpreter) : List String → List Value × Option Failure
  | [] => ([], none)
  | expression :: rest =>
    match i.run expression with
    | (.error failure, _) => ([], some failure)
    | (.ok value, i) =>
      let (values, failure?) := evaluate i rest
      (value :: values, failure?)

/-- A text as a line. -/
def line (text : String) : String :=
  text ++ "\n"

/-- Prints a text, or nothing in the face of a problem. -/
def Outcome.ofExcept (result : Except Problem String) : Outcome :=
  match result with
  | .ok output => { output }
  | .error problem => { output := "", problem? := some problem }

/-- Runs a command with all of the standard input at hand. -/
def Command.run (settings : Settings) (input : List UInt8) : Command → Outcome
  | eval expressions =>
    let (values, failure?) := evaluate { limits := settings.limits } expressions
    { output := String.join (values.map fun v => line v.text)
      problem? := failure?.map .expression }
  | render expression =>
    .ofExcept <|
      match Stmt.parse expression with
      | .error failure => .error (.expression failure)
      | .ok (.expr e) => .ok (line e.draw)
      | .ok (.render _) => .error .doubleTree
  | tokens expression =>
    .ofExcept <|
      match Token.lex expression with
      | .error e => .error (.expression (.lex e))
      | .ok ts => .ok (String.join (ts.map fun t => line t.listing))
  | ast expression =>
    .ofExcept <|
      match Stmt.parse expression with
      | .error failure => .error (.expression failure)
      | .ok s => .ok (line s.toJson.pretty)
  | repl =>
    let t := Session.talk { limits := settings.limits } (Lines.split input)
    let answers := Session.banner About.version ++ t.output
    match Problem.ofEnding? t.ending with
    | some problem => { output := answers, problem? := some problem }
    | none => { output := answers ++ Session.farewell }
  | serve =>
    let served := Server.serve { limits := settings.limits } input
    { output := served.output, problem? := if served.complete then none else some .input }
  | info => { output := About.info }

/-- The settings of an invocation: those of its file, if it names one, with the bounds that its
options give. -/
def Invocation.settings (i : Invocation) (read : String → Option String) :
    Except Settings.Fault Settings :=
  match i.options.config? with
  | none => .ok (i.options.adjust {})
  | some path => (Settings.load (read path)).map i.options.adjust

/-- What the program does with the given arguments and input, where `read` gives the texts of
files. -/
def run (read : String → Option String) (input : List UInt8) (args : List String) : Outcome :=
  match Invocation.ofTexts args with
  | .error detour => detour.outcome
  | .ok i =>
    match i.settings read with
    | .error fault => { output := "", problem? := some (.settings fault) }
    | .ok settings => i.command.run settings input

end Reckon.CommandLine
