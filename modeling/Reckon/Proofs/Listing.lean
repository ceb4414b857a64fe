import Reckon.Proofs.Dependence
import Reckon.Session

/-!
# The listing of variables

A store keeps its bindings in the order of their names. Nothing asks for that of a table that keeps
them in any order whatsoever and sorts them when they are to be listed: the sorted bindings are the
same for every order, since no name is bound twice. So a listing depends on the values of the names
alone, which are those that were assigned last since the store was cleared.

* `Store.get?_replay`: the bindings behind any operations.
* `Store.Enumerates.byName_eq`: bindings in any order, once they are sorted.
* `Session.listing_eq_iff`: the text for a store without bindings.
* `listing_canonical`: the listing behind any operations and in any session.
-/

namespace Reckon

/-! ## Operations on a store -/

namespace Store

/-- What is done to a store. -/
inductive Op where
  | assign (name : String) (value : Int)
  | clear
  deriving DecidableEq, Repr

def apply (s : Store) : Op → Store
  | .assign name value => s.assign name value
  | .clear => ∅

/-- The store behind a list of operations, the first of them on an empty store. -/
def replay (ops : List Op) : Store :=
  ops.foldl apply ∅

/-- The operations neither assign to the name nor clear the store. -/
def Keeps (ops : List Op) (name : String) : Prop :=
  .clear ∉ ops ∧ ∀ value, .assign name value ∉ ops

/-- The operations assign the value to the name, and keep it from then on. -/
def Binds (ops : List Op) (name : String) (value : Int) : Prop :=
  ∃ front back, ops = front ++ .assign name value :: back ∧ Keeps back name

variable {op : Op} {ops : List Op} {name : String} {value : Int}

theorem keeps_cons :
    Keeps (op :: ops) name ↔ (op ≠ .clear ∧ ∀ value, op ≠ .assign name value) ∧ Keeps ops name := by
  simp only [Keeps, List.mem_cons, not_or, eq_comm (b := op)]
  constructor
  · rintro ⟨⟨hclear, hclears⟩, hassign⟩
    exact ⟨⟨hclear, fun v => (hassign v).1⟩, hclears, fun v => (hassign v).2⟩
  · rintro ⟨⟨hclear, hassign⟩, hclears, hassigns⟩
    exact ⟨⟨hclear, hclears⟩, fun v => ⟨hassign v, hassigns v⟩⟩

theorem not_binds_nil : ¬ Binds [] name value := by
  rintro ⟨front, back, hops, -⟩
  simp at hops

theorem binds_cons :
    Binds (op :: ops) name value ↔
      Binds ops name value ∨ op = .assign name value ∧ Keeps ops name := by
  constructor
  · rintro ⟨front, back, hops, hkeeps⟩
    cases front with
    | nil =>
      obtain ⟨rfl, rfl⟩ := List.cons.inj hops
      exact .inr ⟨rfl, hkeeps⟩
    | cons first front =>
      obtain ⟨rfl, rfl⟩ := List.cons.inj hops
      exact .inl ⟨front, back, rfl, hkeeps⟩
  · rintro (⟨front, back, rfl, hkeeps⟩ | ⟨rfl, hkeeps⟩)
    · exact ⟨op :: front, back, rfl, hkeeps⟩
    · exact ⟨[], ops, rfl, hkeeps⟩

/-- One operation binds a name, or keeps what the store has for it. -/
theorem get?_apply (s : Store) (op : Op) (name : String) (value : Int) :
    (s.apply op).get? name = some value ↔
      op = .assign name value ∨
        (op ≠ .clear ∧ ∀ v, op ≠ .assign name v) ∧ s.get? name = some value := by
  cases op with
  | assign x n =>
    rw [apply, get?_assign]
    by_cases hx : name = x
    · simp [hx]
    · simp [hx, Ne.symm hx]
  | clear => simp [apply]

/-- Behind operations on any store, a name has the value that was assigned to it last, or the one
that the operations kept. -/
theorem get?_foldl_apply (ops : List Op) (s : Store) (name : String) (value : Int) :
    (ops.foldl apply s).get? name = some value ↔
      Binds ops name value ∨ Keeps ops name ∧ s.get? name = some value := by
  induction ops generalizing s with
  | nil => simp [not_binds_nil, Keeps]
  | cons op ops ih =>
    rw [List.foldl_cons, ih, binds_cons, keeps_cons, get?_apply]
    grind

theorem get?_replay (ops : List Op) (name : String) (value : Int) :
    (replay ops).get? name = some value ↔ Binds ops name value := by
  simp [replay, get?_foldl_apply]

end Store

/-! ## Bindings in any order -/

namespace Entries

variable {α : Type}

/-- The name of the second entry does not come before that of the first. -/
def inOrder (a b : String × α) : Bool :=
  !decide (key b.1 < key a.1)

/-- The entries sorted by the bytes of their names. -/
def byName (es : Entries α) : Entries α :=
  es.mergeSort inOrder

theorem inOrder_iff {a b : String × α} : inOrder a b = true ↔ ¬ key b.1 < key a.1 := by
  rw [inOrder, Bool.not_eq_true', decide_eq_false_iff_not]

theorem inOrder_trans (a b c : String × α) (hab : inOrder a b = true) (hbc : inOrder b c = true) :
    inOrder a c = true := by
  rw [inOrder_iff, List.not_lt] at hab hbc ⊢
  exact List.le_trans hab hbc

theorem inOrder_total (a b : String × α) : (inOrder a b || inOrder b a) = true := by
  rw [Bool.or_eq_true, inOrder_iff, inOrder_iff, List.not_lt, List.not_lt]
  exact List.le_total _ _

theorem byName_perm (es : Entries α) : (byName es).Perm es :=
  List.mergeSort_perm _ _

/-- Sorted entries increase strictly if no name occurs twice. -/
theorem ordered_byName {es : Entries α} (h : (es.map Prod.fst).Nodup) : Ordered (byName es) := by
  have hsorted : (byName es).Pairwise fun a b => inOrder a b = true :=
    List.pairwise_mergeSort inOrder_trans inOrder_total es
  have hnames : (byName es).Pairwise fun a b => a.1 ≠ b.1 :=
    List.pairwise_map.mp (((byName_perm es).map Prod.fst).nodup_iff.mpr h)
  exact (hsorted.and hnames).imp fun hab => key_lt_of_not_lt hab.2.symm (inOrder_iff.mp hab.1)

theorem Ordered.nodup {es : Entries α} (h : Ordered es) : (es.map Prod.fst).Nodup := by
  refine List.pairwise_map.mpr (h.imp fun hlt heq => ?_)
  rw [heq] at hlt
  exact List.lt_irrefl _ hlt

/-- Where no name occurs twice, look-up finds every entry. -/
theorem lookup_eq_some_iff {es : Entries α} (h : (es.map Prod.fst).Nodup) {name : String}
    {value : α} : lookup name es = some value ↔ (name, value) ∈ es := by
  refine ⟨mem_of_lookup, fun hmem => ?_⟩
  induction es with
  | nil => cases hmem
  | cons e es ih =>
    obtain ⟨hfirst, hrest⟩ := List.nodup_cons.mp h
    rw [lookup]
    rcases List.mem_cons.mp hmem with rfl | hmem
    · exact if_pos rfl
    · have hne : name ≠ e.1 := fun heq => hfirst (heq ▸ List.mem_map_of_mem hmem)
      rw [if_neg hne]
      exact ih hrest hmem

end Entries

namespace Store

/-- The entries are the bindings of the store, each of them once, in any order. -/
structure Enumerates (s : Store) (es : Entries Int) : Prop where
  nodup : (es.map Prod.fst).Nodup
  mem_iff : ∀ name value, (name, value) ∈ es ↔ s.get? name = some value

variable {s : Store} {es : Entries Int}

theorem enumerates_entries (s : Store) : s.Enumerates s.entries :=
  ⟨s.ordered.nodup, fun _ _ => (Entries.lookup_eq_some_iff s.ordered.nodup).symm⟩

theorem Enumerates.perm {fs : Entries Int} (h : s.Enumerates es) (hfs : fs.Perm es) :
    s.Enumerates fs := by
  refine ⟨(hfs.map Prod.fst).nodup_iff.mpr h.nodup, fun name value => ?_⟩
  rw [hfs.mem_iff, h.mem_iff]

theorem Enumerates.lookup_eq (h : s.Enumerates es) (name : String) :
    es.lookup name = s.get? name := by
  apply Option.ext
  intro value
  rw [Entries.lookup_eq_some_iff h.nodup, h.mem_iff]

/-- Sorting takes bindings in any order to the listing. -/
theorem Enumerates.byName_eq (h : s.Enumerates es) : es.byName = s.entries := by
  refine Entries.eq_of_lookup (Entries.ordered_byName h.nodup) s.ordered fun name => ?_
  exact (h.perm es.byName_perm).lookup_eq name

end Store

/-! ## The answer to `:vars` -/

namespace Session

/-- The text for bindings in any order, which are sorted to be listed. -/
def listingOf (es : Entries Int) : String :=
  if es.isEmpty then "(no variables)"
  else "\n".intercalate (es.byName.map fun e => e.1 ++ " = " ++ Decimal.text e.2)

theorem listing_eq_listingOf {s : Store} {es : Entries Int} (h : s.Enumerates es) :
    listing s = listingOf es := by
  have hempty : es.isEmpty = s.isEmpty := by
    rw [Store.isEmpty, ← h.byName_eq]
    exact es.byName_perm.isEmpty_eq.symm
  rw [listing, listingOf, hempty, h.byName_eq]

theorem step_vars (i : Interpreter) : step i ":vars" = (.print (listing i.store), i) :=
  rfl

theorem mem_intercalate_cons {c : Char} {separator first : List Char} {rest : List (List Char)}
    (h : c ∈ first) : c ∈ separator.intercalate (first :: rest) := by
  cases rest <;> simp [List.intercalate, h]

/-- Each line for a binding holds an equals sign, so no binding makes a listing read as that of an
empty store, whatever its name is. -/
theorem listing_of_entries_cons {s : Store} {e : String × Int} {es : Entries Int}
    (h : s.entries = e :: es) : '=' ∈ (listing s).toList := by
  have hempty : s.isEmpty = false := by rw [Store.isEmpty, h, List.isEmpty_cons]
  rw [listing, hempty, h, if_neg Bool.false_ne_true, String.toList_intercalate, List.map_cons,
    List.map_cons]
  exact mem_intercalate_cons (by simp)

theorem listing_eq_iff {s : Store} :
    listing s = "(no variables)" ↔ ∀ name, s.get? name = none := by
  cases hentries : s.entries with
  | nil =>
    have hlisting : listing s = "(no variables)" := by
      rw [listing, Store.isEmpty, hentries]
      rfl
    have hget : ∀ name, s.get? name = none := fun name => by
      rw [Store.get?, hentries]
      rfl
    exact iff_of_true hlisting hget
  | cons e es =>
    refine iff_of_false (fun h => ?_) (fun h => ?_)
    · have hmem := listing_of_entries_cons hentries
      rw [h] at hmem
      exact absurd hmem (by decide)
    · have hmem : (e.1, e.2) ∈ s.entries := hentries ▸ List.mem_cons_self
      have hget := (s.enumerates_entries.mem_iff e.1 e.2).mp hmem
      rw [h e.1] at hget
      cases hget

end Session

/-- **The listing of variables is canonical.** Behind any operations a name has the value that was
assigned to it last since the store was cleared. The listing holds exactly these bindings, with
names that increase strictly in the order of their bytes, so each of them once; it is what sorting
makes of the bindings in any order in which a table may keep them. The answer to `:vars` depends on
the values of the names alone, not on what was done to get there nor on such an order, and says that
there are no variables exactly if no name is bound. -/
theorem listing_canonical :
    (∀ ops : List Store.Op,
      (Store.replay ops).entries.Pairwise (fun a b => Entries.key a.1 < Entries.key b.1) ∧
      (Store.replay ops).Enumerates (Store.replay ops).entries ∧
      (∀ name value, (Store.replay ops).get? name = some value ↔ Store.Binds ops name value) ∧
      ∀ es, (Store.replay ops).Enumerates es →
        es.byName = (Store.replay ops).entries ∧ es.length = (Store.replay ops).size) ∧
    (∀ (i j : Interpreter) (es fs : Entries Int), i.store.Enumerates es → j.store.Enumerates fs →
      (∀ name, i.store.get? name = j.store.get? name) →
        Session.step i ":vars" = (.print (Session.listingOf es), i) ∧
        Session.step j ":vars" = (.print (Session.listingOf es), j) ∧
        Session.listingOf es = Session.listingOf fs) ∧
    ∀ i : Interpreter, Session.step i ":vars" = (.print "(no variables)", i) ↔
      ∀ name, i.store.get? name = none := by
  refine ⟨fun ops => ⟨(Store.replay ops).ordered, (Store.replay ops).enumerates_entries,
    Store.get?_replay ops, fun es hes => ⟨hes.byName_eq, ?_⟩⟩, ?_, fun i => ?_⟩
  · rw [Store.size, ← hes.byName_eq, es.byName_perm.length_eq]
  · intro i j es fs hes hfs hsame
    have hstore : i.store = j.store := Store.ext_get? hsame
    have hfs' := Session.listing_eq_listingOf hfs
    rw [Session.step_vars, Session.step_vars, ← Session.listing_eq_listingOf hes, ← hstore, ← hfs',
      hstore]
    exact ⟨rfl, rfl, rfl⟩
  · rw [Session.step_vars, Prod.mk.injEq, Session.Action.print.injEq, and_iff_left rfl,
      Session.listing_eq_iff]

/-- Operations with names of one and two bytes. -/
def clearedHistory : List Store.Op :=
  [.assign "a" 1, .assign "b" 2, .clear, .assign "é" 3, .assign "b" 4, .assign "Z" 5,
    .assign "b" 6]

/-- What was bound before the store was cleared is gone, a capital letter comes first and a letter
of two bytes last, and two orders of the bindings give one text. -/
theorem listing_canonical_cleared :
    (Store.replay clearedHistory).Enumerates [("é", 3), ("b", 6), ("Z", 5)] ∧
    (Store.replay clearedHistory).Enumerates [("b", 6), ("Z", 5), ("é", 3)] ∧
    Entries.byName [("é", (3 : Int)), ("b", 6), ("Z", 5)] = [("Z", 5), ("b", 6), ("é", 3)] ∧
    Session.listingOf [("é", 3), ("b", 6), ("Z", 5)] =
      Session.listingOf [("b", 6), ("Z", 5), ("é", 3)] := by
  have hentries : (Store.replay clearedHistory).entries = [("Z", 5), ("b", 6), ("é", 3)] := by
    decide
  have hsorted := (Store.replay clearedHistory).enumerates_entries
  rw [hentries] at hsorted
  have hone : (Store.replay clearedHistory).Enumerates [("é", 3), ("b", 6), ("Z", 5)] :=
    hsorted.perm (by decide)
  have hother : (Store.replay clearedHistory).Enumerates [("b", 6), ("Z", 5), ("é", 3)] :=
    hsorted.perm (by decide)
  obtain ⟨hops, htexts, -⟩ := listing_canonical
  obtain ⟨-, -, -, hlisting⟩ := hops clearedHistory
  refine ⟨hone, hother, (hlisting _ hone).1.trans hentries, ?_⟩
  exact (htexts ⟨{}, _⟩ ⟨{}, _⟩ _ _ hone hother fun _ => rfl).2.2

end Reckon
