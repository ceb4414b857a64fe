import Reckon.Entries

/-!
# JSON values

The values of the tool protocol and of statement dumps. An object keeps its members in the order
in which they are to be written. Integers of 64 bits, signed or not, are kept exactly; all other
numbers are doubles.
-/

namespace Reckon

inductive Json where
  | null
  | bool (b : Bool)
  | int (n : Int)
  | double (x : Float)
  | string (s : String)
  | array (items : List Json)
  | object (members : List (String × Json))
  deriving Inhabited

namespace Json

/-- The member of an object with a name. -/
def member? (j : Json) (name : String) : Option Json :=
  match j with
  | object members => Entries.lookup name members
  | _ => none

end Json

end Reckon
