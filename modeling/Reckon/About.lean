/-!
# The program's own words

Its name, its version, the text of `info` and its help.
-/

namespace Reckon.About

def name : String := "tally"

def version : String := "0.1.0"

/-- What `info` prints. -/
def info : String :=
  "\n".intercalate
    [name ++ " - integer expression language",
      "Version: " ++ version,
      "",
      "Operators (loosest to tightest):",
      "  =          assignment, right-associative",
      "  + -        additive",
      "  * / %      multiplicative, / and % round toward -infinity",
      "  ^          power, left-associative",
      "  + - !      prefix plus, negation, factorial",
      "",
      "Statements:",
      "  render(expr)   print the parse tree instead of evaluating",
      ""]

/-! ## Help -/

/-- A command: what it is for, what is passed to it, and a remark on that. -/
structure Topic where
  name : String
  purpose : String
  operand : String := ""
  remark : String := ""
  hasOptions : Bool := true

def topics : List Topic :=
  [{ name := "eval", purpose := "Evaluate expressions in order, sharing variables"
     operand := "<EXPR>...", remark := "Expressions to evaluate" },
    { name := "render", purpose := "Print the parse tree of an expression", operand := "<EXPR>" },
    { name := "tokens", purpose := "Print the token stream of an expression", operand := "<EXPR>" },
    { name := "ast", purpose := "Print the parsed statement as JSON", operand := "<EXPR>" },
    { name := "repl", purpose := "Start the interactive REPL" },
    { name := "serve", purpose := "Serve the `calculate` tool over JSON-RPC on stdin/stdout" },
    { name := "info", purpose := "Show information about " ++ name },
    { name := "help", purpose := "Print this message or the help of the given subcommand(s)"
      operand := "[COMMAND]...", remark := "Print help for the subcommand(s)"
      hasOptions := false }]

/-- The options that may stand in front of a command and after it. -/
def optionLines : List String :=
  ["  -v, --verbose            Enable verbose output",
    "  -c, --config <FILE>      Configuration file (TOML)",
    "      --max-factorial <N>  Largest operand accepted by `!`",
    "      --max-exponent <N>   Largest exponent accepted by `^`",
    "  -h, --help               Print help"]

/-- The topic in the list of commands. -/
def Topic.line (t : Topic) : String :=
  "  " ++ t.name ++ String.ofList (List.replicate (8 - t.name.length) ' ') ++ t.purpose

/-- What `--help` prints behind a command. -/
def Topic.help (t : Topic) : String :=
  let parts := [About.name, t.name] ++ (if t.hasOptions then ["[OPTIONS]"] else []) ++
    if t.operand = "" then [] else [t.operand]
  let operand := if t.operand = "" then []
    else ["Arguments:", "  " ++ t.operand ++ "  " ++ t.remark, ""]
  let options := if t.hasOptions then "Options:" :: optionLines ++ [""] else []
  "\n".intercalate ([t.purpose, "", "Usage: " ++ " ".intercalate parts, ""] ++ operand ++ options)

/-- What `--help` prints in front of any command. -/
def usage : String :=
  "\n".intercalate
    (["A small integer expression language", "", "Usage: " ++ name ++ " [OPTIONS] <COMMAND>", "",
      "Commands:"] ++ topics.map Topic.line ++ ["", "Options:"] ++ optionLines ++
      ["  -V, --version            Print version", ""])

/-- The help on a command, or on all of the program. -/
def help (command? : Option String) : String :=
  match command?.bind fun command => topics.find? (·.name == command) with
  | some topic => topic.help
  | none => usage

/-- What `--version` prints. -/
def versionLine : String :=
  name ++ " " ++ version ++ "\n"

end Reckon.About
