import Reckon.Toml.Scalar

/-!
# TOML tables under construction

Headers and dotted keys build a table piece by piece, and which pieces may still be added hangs on
how a table came into being. A `Node` keeps that; `Node.toValue` forgets it at the end. An addition
that the rules forbid gives nothing.
-/

namespace Reckon.Toml

/-- The parts of a dotted key. -/
abbrev Path := List String

/-- How a table came into being: by a header of its own or the document's start, on the way to
another header, or by a dotted key. -/
inductive Origin where
  | header
  | implied
  | dotted
  deriving DecidableEq, Repr, Inhabited

/-- A piece of a document. Values, inline tables among them, are closed. Of an array of tables the
last one is open. -/
inductive Node where
  | closed (value : Value)
  | table (origin : Origin) (children : List (String × Node))
  | tables (earlier : List (List (String × Node))) (last : List (String × Node))
  deriving Inhabited

abbrev Children := Entries Node

mutual

/-- The value that a node has become. -/
def Node.toValue : Node → Value
  | .closed value => value
  | .table _ children => .table (entryValues children)
  | .tables earlier last => .array (tableValues earlier ++ [.table (entryValues last)])

/-- The named values of a table. -/
def entryValues : List (String × Node) → List (String × Value)
  | [] => []
  | (name, n) :: rest => (name, n.toValue) :: entryValues rest

/-- The tables of an array as values. -/
def tableValues : List (List (String × Node)) → List Value
  | [] => []
  | t :: rest => .table (entryValues t) :: tableValues rest

end

/-- Changes the table that a path leads to. Tables on the way that do not exist yet come into being,
and of an array of tables the last is meant. A dotted key leads through no table with a header. -/
def updateAt (way : Origin) (change : Origin → Children → Option (Origin × Children)) :
    Path → Origin → Children → Option (Origin × Children)
  | [], origin, children => change origin children
  | name :: path, origin, children =>
    let node? : Option Node :=
      match children.lookup name with
      | none => (updateAt way change path way []).map fun (o, cs) => .table o cs
      | some (.closed _) => none
      | some (.table o cs) =>
        if way = .dotted ∧ o = .header then none
        else (updateAt way change path o cs).map fun (o, cs) => .table o cs
      | some (.tables earlier last) =>
        (updateAt way change path .header last).map fun (_, cs) => .tables earlier cs
    node?.map fun node => (origin, children.insert name node)

/-- Splits the last part off a path. -/
def splitLast? : Path → Option (Path × String)
  | [] => none
  | [name] => some ([], name)
  | name :: rest => (splitLast? rest).map fun (init, last) => (name :: init, last)

/-- Adds a value to a table under a dotted key. The last part has to be new. The table it belongs to
is this one itself, or one that dotted keys made. -/
def addValue (path : Path) (value : Value) (origin : Origin) (children : Children) :
    Option (Origin × Children) := do
  let (way, name) ← splitLast? path
  let add (o : Origin) (cs : Children) : Option (Origin × Children) :=
    if (o == .dotted) == way.isEmpty || (cs.lookup name).isSome then none
    else some (o, cs.insert name (.closed value))
  updateAt .dotted add way origin children

/-- Opens the table of a header in the document's table. It has to be new, or to be implied by
headers before it. -/
def openTable (path : Path) (document : Children) : Option Children := do
  let (way, name) ← splitLast? path
  let add (o : Origin) (cs : Children) : Option (Origin × Children) :=
    match cs.lookup name with
    | none => some (o, cs.insert name (.table .header []))
    | some (.table .implied inner) => some (o, cs.insert name (.table .header inner))
    | some _ => none
  return (← updateAt .implied add way .header document).2

/-- Opens one more table in the array of tables of a header. -/
def openNext (path : Path) (document : Children) : Option Children := do
  let (way, name) ← splitLast? path
  let add (o : Origin) (cs : Children) : Option (Origin × Children) :=
    match cs.lookup name with
    | none => some (o, cs.insert name (.tables [] []))
    | some (.tables earlier last) => some (o, cs.insert name (.tables (earlier ++ [last]) []))
    | some _ => none
  return (← updateAt .implied add way .header document).2

end Reckon.Toml
