import Reckon.Json.Printer
import Reckon.Text.Quoted

/-!
# Requests of the tool protocol

A message is a JSON-RPC request: an object, or an array that lists the same fields in their order.
The fields of an object are looked at in the order of their names and unknown ones are left alone;
a field that is needed and absent is noticed last. A `ShapeError` says what is wrong with a message
that has another shape.
-/

namespace Reckon

/-- How a message names a JSON value of the wrong kind. -/
def Json.description : Json → String
  | null => "null"
  | bool b => "boolean `" ++ (if b then "true" else "false") ++ "`"
  | int n => "integer `" ++ Decimal.text n ++ "`"
  | double x => "floating point `" ++ Json.doubleText x ++ "`"
  | string s => "string " ++ Quoted.quote s
  | array _ => "sequence"
  | object _ => "map"

namespace Server

/-- The reason why a JSON value is not of the shape that is wanted. -/
inductive ShapeError where
  | wrongType (found : Json) (wanted : String)
  | missingField (name : String)
  | tooShort (length : Nat) (wanted : String)
  | tooLong (length : Nat)

def ShapeError.message : ShapeError → String
  | wrongType found wanted => "invalid type: " ++ found.description ++ ", expected " ++ wanted
  | missingField name => "missing field `" ++ name ++ "`"
  | tooShort length wanted =>
    "invalid length " ++ Decimal.natText length ++ ", expected " ++ wanted
  | tooLong length =>
    "invalid length " ++ Decimal.natText length ++ ", expected fewer elements in array"

/-- The text of a JSON string. -/
def textOf (j : Json) : Except ShapeError String :=
  match j with
  | .string s => .ok s
  | _ => .error (.wrongType j "a string")

/-- Refuses an array with more items than there are fields. -/
def atMost (fields : Nat) (items : List Json) : Except ShapeError Unit :=
  if items.length ≤ fields then .ok () else .error (.tooLong items.length)

/-! ## Messages -/

/-- A JSON-RPC message. One without an identifier asks for no answer; null is an identifier. -/
structure Request where
  version : String
  id? : Option Json
  method : String
  params : Json

namespace Request

/-- The version that is stated; if none is, it is empty. -/
def versionOf : Option Json → Except ShapeError String
  | some j => textOf j
  | none => .ok ""

def ofMembers (members : Entries Json) : Except ShapeError Request := do
  let version ← versionOf (members.lookup "jsonrpc")
  match members.lookup "method" with
  | some j =>
    let method ← textOf j
    return ⟨version, members.lookup "id", method, (members.lookup "params").getD .null⟩
  | none => .error (.missingField "method")

def ofItems (items : List Json) : Except ShapeError Request := do
  let version ← versionOf items[0]?
  match items[2]? with
  | some j =>
    let method ← textOf j
    atMost 4 items
    return ⟨version, items[1]?, method, items[3]?.getD .null⟩
  | none => .error (.tooShort 2 "struct Request with 4 elements")

/-- The request that a JSON value spells. -/
def decode (j : Json) : Except ShapeError Request :=
  match j with
  | .object members => ofMembers members
  | .array items => ofItems items
  | _ => .error (.wrongType j "struct Request")

end Request

/-! ## Tool calls -/

/-- The arguments of the tool: the expression, unless it is absent or null. -/
structure Arguments where
  expression? : Option String := none

namespace Arguments

/-- An expression that may be null. -/
def expressionOf (j : Json) : Except ShapeError Arguments :=
  match j with
  | .null => .ok ⟨none⟩
  | _ => (textOf j).map (⟨some ·⟩)

/-- The arguments that a JSON value spells. -/
def decode (j : Json) : Except ShapeError Arguments :=
  match j with
  | .object members =>
    match Entries.lookup "expression" members with
    | some e => expressionOf e
    | none => .ok ⟨none⟩
  | .array [] => .error (.tooShort 0 "struct CalculateArgs with 1 element")
  | .array (e :: rest) => do
    let arguments ← expressionOf e
    atMost 1 (e :: rest)
    return arguments
  | _ => .error (.wrongType j "struct CalculateArgs")

end Arguments

/-- The parameters of a tool call. -/
structure Call where
  tool : String
  arguments : Arguments

namespace Call

/-- The arguments that are passed; if there are none, they hold no expression. -/
def argumentsOf : Option Json → Except ShapeError Arguments
  | some j => Arguments.decode j
  | none => .ok {}

def ofMembers (members : Entries Json) : Except ShapeError Call := do
  let arguments ← argumentsOf (members.lookup "arguments")
  match members.lookup "name" with
  | some j =>
    let tool ← textOf j
    return ⟨tool, arguments⟩
  | none => .error (.missingField "name")

def ofItems (items : List Json) : Except ShapeError Call := do
  match items[0]? with
  | some j =>
    let tool ← textOf j
    let arguments ← argumentsOf items[1]?
    atMost 2 items
    return ⟨tool, arguments⟩
  | none => .error (.tooShort 0 "struct CallParams with 2 elements")

/-- The tool call that a JSON value spells. -/
def decode (j : Json) : Except ShapeError Call :=
  match j with
  | .object members => ofMembers members
  | .array items => ofItems items
  | _ => .error (.wrongType j "struct CallParams")

end Call

end Server

end Reckon
