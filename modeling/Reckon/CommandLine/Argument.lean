/-!
# Arguments of the command line

The arguments of the program are read from left to right as flags, options with a value, and words.
Short flags may share one dash, and a value may stand in the same argument as its option. What
follows two dashes is words only. Which arguments are wanted where is not decided here.
-/

namespace Reckon.CommandLine

/-- The options that take a value. -/
inductive Parameter where
  | config
  | maxFactorial
  | maxExponent
  deriving DecidableEq, Repr

inductive Argument where
  | verbose
  | version
  | help
  | option (parameter : Parameter) (value : String)
  | word (text : String)
  /-- The two dashes in front of words. -/
  | dashes
  /-- An option that does not exist, or one without its value. -/
  | invalid
  deriving DecidableEq, Repr

namespace Argument

/-- The flag with a long name. -/
def flag? : String → Option Argument
  | "verbose" => some .verbose
  | "version" => some .version
  | "help" => some .help
  | _ => none

/-- The option with a long name. -/
def parameter? : String → Option Parameter
  | "config" => some .config
  | "max-factorial" => some .maxFactorial
  | "max-exponent" => some .maxExponent
  | _ => none

/-- The arguments of letters that share a dash, and an option among them that waits for its value.
Only the last can take one: all that follows its letter is the value. -/
def ofLetters : List Char → List Argument × Option Parameter
  | [] => ([], none)
  | 'v' :: rest => (ofLetters rest).map (.verbose :: ·) id
  | 'V' :: rest => (ofLetters rest).map (.version :: ·) id
  | 'h' :: rest => (ofLetters rest).map (.help :: ·) id
  | ['c'] => ([], some .config)
  | 'c' :: '=' :: value => ([.option .config (String.ofList value)], none)
  | 'c' :: value => ([.option .config (String.ofList value)], none)
  | _ => ([.invalid], none)

/-- The argument of a long name, or the option that waits for its value. -/
def ofLong (text : List Char) : Argument ⊕ Parameter :=
  let name := String.ofList (text.takeWhile (· != '='))
  match text.dropWhile (· != '='), flag? name, parameter? name with
  | [], some flag, _ => .inl flag
  | [], none, some parameter => .inr parameter
  | _ :: value, _, some parameter => .inl (.option parameter (String.ofList value))
  | _, _, _ => .inl .invalid

/-- Whether an argument begins with a dash and is more than a dash. -/
def isDashed (arg : String) : Bool :=
  match arg.toList with
  | '-' :: _ :: _ => true
  | _ => false

/-- The arguments at the front of a list: those of one text, and an option that waits for its
value. -/
def ofText (arg : String) : List Argument × Option Parameter :=
  match arg.toList with
  | '-' :: '-' :: text =>
    match ofLong text with
    | .inl argument => ([argument], none)
    | .inr parameter => ([], some parameter)
  | '-' :: c :: text => ofLetters (c :: text)
  | _ => ([.word arg], none)

/-- The arguments that texts stand for. An option's value does not begin with a dash, a lone dash
apart. -/
def ofTexts : List String → List Argument
  | [] => []
  | arg :: rest =>
    if arg = "--" then .dashes :: rest.map .word
    else
      match ofText arg with
      | (arguments, none) => arguments ++ ofTexts rest
      | (arguments, some parameter) =>
        match rest with
        | [] => arguments ++ [.invalid]
        | value :: rest =>
          if isDashed value then arguments ++ [.invalid]
          else arguments ++ .option parameter value :: ofTexts rest

end Argument

end Reckon.CommandLine
