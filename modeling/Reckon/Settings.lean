import Reckon.Arithmetic
import Reckon.Toml.Document

/-!
# Settings

Bounds and session settings, read from a TOML document. Every setting has a default, and names that
mean nothing here are passed over. A group of settings is a table, or an array that gives them in
order.
-/

namespace Reckon

structure Settings where
  limits : Limits := {}
  /-- What a session shows in front of each line at a terminal. -/
  prompt : String := "> "
  /-- Where a session keeps its history. -/
  historyFile? : Option String := none
  deriving DecidableEq, Repr, Inhabited

namespace Settings

/-- Why there are no settings: the file cannot be read, or its text does not hold settings. -/
inductive Fault where
  | unreadable
  | malformed
  deriving DecidableEq, Repr

namespace Fault

def code : Fault → String
  | unreadable => "config::io"
  | malformed => "config::parse"

def message : Fault → String
  | unreadable => "Failed to read config file"
  | malformed => "Invalid config file"

end Fault

/-! ## Groups -/

/-- Whether a value can be a group. A date or time counts as one without any known setting. -/
def isGroup : Toml.Value → Bool
  | .table _ | .array _ | .dateTime _ => true
  | _ => false

/-- The value of a setting in a group, by its name or by its place. -/
def member? (place : Nat) (name : String) : Toml.Value → Option Toml.Value
  | .table entries => Entries.lookup name entries
  | .array items => items[place]?
  | _ => none

/-- Reads a value that may be left out. -/
def readOr {α : Type} (default : α) (read : Toml.Value → Option α) : Option Toml.Value → Option α
  | none => some default
  | some v => read v

/-- A natural number below a bound. -/
def natural? (bound : Nat) : Toml.Value → Option Nat
  | .integer n => if 0 ≤ n ∧ n < bound then some n.toNat else none
  | _ => none

def text? : Toml.Value → Option String
  | .string s => some s
  | _ => none

/-! ## Reading -/

/-- The bounds of the group `limits`. -/
def limitsOf? (group : Toml.Value) : Option Limits := do
  if !isGroup group then none
  let defaults : Limits := {}
  let maxFactorial ← readOr defaults.maxFactorial
    (fun v => (natural? UInt64.size v).map UInt64.ofNat) (member? 0 "max_factorial" group)
  let maxExponent ← readOr defaults.maxExponent
    (fun v => (natural? UInt32.size v).map UInt32.ofNat) (member? 1 "max_exponent" group)
  return { maxFactorial, maxExponent }

/-- Settings with those of the group `repl` in place of their own. -/
def withSession? (s : Settings) (group : Toml.Value) : Option Settings := do
  if !isGroup group then none
  let prompt ← readOr s.prompt text? (member? 0 "prompt" group)
  let historyFile? ← readOr s.historyFile? (fun v => (text? v).map some)
    (member? 1 "history_file" group)
  return { s with prompt, historyFile? }

/-- The settings of a document. -/
def ofDocument? (document : Entries Toml.Value) : Option Settings := do
  let limits ← readOr {} limitsOf? (document.lookup "limits")
  let settings : Settings := { limits }
  readOr settings settings.withSession? (document.lookup "repl")

/-- The settings of a file with the given text, if it could be read. -/
def load (text? : Option String) : Except Fault Settings :=
  match text? with
  | none => .error .unreadable
  | some text =>
    match Toml.parse text >>= ofDocument? with
    | some settings => .ok settings
    | none => .error .malformed

end Settings

end Reckon
