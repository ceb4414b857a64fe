import Reckon.Text.Cluster

/-!
# Typed text

A text that is typed may hold backspaces. Each of them takes back the cluster before it, if there is
one. The number of bytes to take back is kept in a single byte, so of a cluster of 256 bytes or more
only the last ones go.
-/

namespace Reckon.Typed

def backspace : Char := '\x08'

/-- The characters that are kept so far and the sizes of the clusters that can be taken back, in
both cases the last one first. -/
structure Kept where
  chars : List Char := []
  sizes : List UInt8 := []
  deriving DecidableEq, Repr, Inhabited

/-- The characters, the last one first, without the bytes at their end. There is nothing if a
character would be cut. -/
def takeBack : List Char → Nat → Option (List Char)
  | [], bytes => if bytes = 0 then some [] else none
  | c :: before, bytes =>
    if bytes = 0 then some (c :: before)
    else if c.utf8Size ≤ bytes then takeBack before (bytes - c.utf8Size)
    else none

/-- Types one cluster. -/
def Kept.type (k : Kept) (cluster : List Char) : Option Kept :=
  if cluster = [backspace] then
    match k.sizes with
    | [] => some k
    | size :: sizes => (takeBack k.chars size.toNat).map fun chars => ⟨chars, sizes⟩
  else
    some ⟨cluster.reverse ++ k.chars, UInt8.ofNat (String.ofList cluster).utf8ByteSize :: k.sizes⟩

/-- Types clusters in turn. -/
def Kept.typeAll (k : Kept) : List (List Char) → Option Kept
  | [] => some k
  | cluster :: rest =>
    match k.type cluster with
    | none => none
    | some k => k.typeAll rest

/-- What is kept of a text that is typed. There is nothing if a character would be cut. -/
def kept? (text : String) : Option String :=
  (Kept.typeAll {} (Cluster.split text.toList)).map fun k => String.ofList k.chars.reverse

end Reckon.Typed
