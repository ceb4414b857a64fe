import Reckon.CommandLine

/-!
# The program

Reads the arguments, the file of settings and the standard input, and prints what the command line
gives. Sessions and the tool server are answered line by line, so that they can be used while the
input is still open.
-/

namespace Reckon.Main

open CommandLine

/-- Reads the bytes of a line, with its end. There are none at the end of the input. -/
partial def readLine (input : IO.FS.Stream) (line : ByteArray) : IO ByteArray := do
  let byte ← input.read 1
  if byte.toList = [] ∨ byte.toList = [Lines.newline] then return line ++ byte
  readLine input (line ++ byte)

/-- Prints a text at once. -/
def say (text : String) : IO Unit := do
  let output ← IO.getStdout
  output.putStr text
  output.flush

/-- Reports what went wrong and gives the status to end with. -/
def report (problem : Problem) : IO UInt32 := do
  IO.eprintln ("Error: " ++ problem.message)
  return problem.exit

/-- Carries on a session to its end. -/
partial def converse (input : IO.FS.Stream) (prompt : String) (i : Interpreter) : IO UInt32 := do
  say prompt
  let bytes ← readLine input .empty
  let t := Session.talk i (Lines.split bytes.toList)
  say t.output
  match Problem.ofEnding? t.ending with
  | some problem => report problem
  | none =>
    if t.ending = .quit ∨ bytes.toList = [] then
      say Session.farewell
      return 0
    converse input prompt t.interpreter

/-- Serves the tool to the end of the input. -/
partial def serve (input : IO.FS.Stream) (i : Interpreter) : IO UInt32 := do
  let bytes ← readLine input .empty
  if bytes.toList = [] then return 0
  let served := Server.serve i bytes.toList
  say served.output
  if served.complete then serve input served.interpreter else report .input

/-- Prints what a command has to say. -/
def finish (outcome : Outcome) : IO UInt32 := do
  say outcome.output
  match outcome.problem? with
  | none => return 0
  | some problem => report problem

/-- The text of a file, if it can be read. -/
def readFile (path : String) : IO (Option String) := do
  try
    return some (← IO.FS.readFile path)
  catch _ =>
    return none

/-- Carries out an invocation. A session shows its prompt at a terminal only. -/
def perform (invocation : Invocation) : IO UInt32 := do
  let text? ← match invocation.options.config? with
    | some path => readFile path
    | none => pure none
  match invocation.settings fun _ => text? with
  | .error fault => report (.settings fault)
  | .ok settings =>
    let input ← IO.getStdin
    match invocation.command with
    | .repl =>
      say (Session.banner About.version)
      let prompt := if ← input.isTty then settings.prompt else ""
      converse input prompt { limits := settings.limits }
    | .serve => serve input { limits := settings.limits }
    | command => finish (command.run settings [])

end Reckon.Main

def main (args : List String) : IO UInt32 :=
  match Reckon.CommandLine.Invocation.ofTexts args with
  | .ok invocation => Reckon.Main.perform invocation
  | .error detour => Reckon.Main.finish detour.outcome
