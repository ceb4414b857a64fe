import Reckon.Entries

/-!
# The store of variables

A `Store` binds names to integers. Its entries stand in the order of the bytes of their names, so
a listing needs no sorting and two stores with the same bindings are equal.

* `get?_assign`, `get?_empty`: what an operation does to look-up.
* `ext_get?`: a store is determined by its look-up.
-/

namespace Reckon

/-- Bindings of names to integers, in the order of the names' bytes. -/
structure Store where
  entries : Entries Int
  ordered : entries.Ordered

namespace Store

/-- The store without bindings. -/
def empty : Store :=
  ⟨[], .nil⟩

instance : EmptyCollection Store := ⟨empty⟩

instance : Inhabited Store := ⟨empty⟩

/-- The value bound to a name. -/
def get? (s : Store) (name : String) : Option Int :=
  s.entries.lookup name

/-- Binds a name to a value, in place of its earlier value. -/
def assign (s : Store) (name : String) (value : Int) : Store :=
  ⟨s.entries.insert name value, Entries.ordered_insert name value s.ordered⟩

def contains (s : Store) (name : String) : Bool :=
  (s.get? name).isSome

/-- The number of bound names. -/
def size (s : Store) : Nat :=
  s.entries.length

def isEmpty (s : Store) : Bool :=
  s.entries.isEmpty

/-- The store with the bindings of a list, later ones in place of earlier ones. -/
def ofList (es : Entries Int) : Store :=
  es.foldl (fun s e => s.assign e.1 e.2) empty

@[simp] theorem get?_empty (name : String) : (∅ : Store).get? name = none :=
  rfl

@[simp] theorem get?_assign (s : Store) (name other : String) (value : Int) :
    (s.assign name value).get? other = if other = name then some value else s.get? other :=
  Entries.lookup_insert name other value s.entries

theorem get?_assign_self (s : Store) (name : String) (value : Int) :
    (s.assign name value).get? name = some value := by
  simp

theorem get?_assign_of_ne (s : Store) {name other : String} (value : Int) (h : other ≠ name) :
    (s.assign name value).get? other = s.get? other := by
  simp [h]

/-- A store is determined by its look-up. -/
theorem ext_get? {s t : Store} (h : ∀ name, s.get? name = t.get? name) : s = t := by
  obtain ⟨as, ha⟩ := s
  obtain ⟨bs, hb⟩ := t
  have : as = bs := Entries.eq_of_lookup ha hb h
  subst this
  rfl

end Store

end Reckon
