/-!
# Named values in the order of their names

Lists of named values, kept in the order of the bytes of the names' UTF-8 text and with every name
at most once. Two such lists with the same look-up are equal, so they serve as finite maps whose
listing needs no sorting.

* `lookup_insert`: what binding a name does to look-up.
* `ordered_insert`: binding a name keeps the order.
* `eq_of_lookup`: an ordered list is determined by its look-up.
-/

namespace Reckon

abbrev Entries (α : Type) := List (String × α)

namespace Entries

variable {α : Type}

/-- The bytes of a name, by which names are ordered. -/
def key (name : String) : List UInt8 :=
  name.toUTF8.data.toList

/-- Names strictly increase along the list. -/
def Ordered (es : Entries α) : Prop :=
  es.Pairwise fun a b => key a.1 < key b.1

/-- The value of the first entry with a name. -/
def lookup (name : String) : Entries α → Option α
  | [] => none
  | e :: rest => if name = e.1 then some e.2 else lookup name rest

/-- Binds a name in a list of entries, in front of the first entry that belongs after it. -/
def insert (name : String) (value : α) : Entries α → Entries α
  | [] => [(name, value)]
  | e :: rest =>
    if name = e.1 then (name, value) :: rest
    else if key name < key e.1 then (name, value) :: e :: rest
    else e :: insert name value rest

theorem key_injective {a b : String} (h : key a = key b) : a = b := by
  apply String.toByteArray_inj.1
  have h' : a.toUTF8.data = b.toUTF8.data := Array.toList_inj.1 h
  exact ByteArray.ext h'

theorem key_lt_of_not_lt {a b : String} (hne : a ≠ b) (h : ¬ key a < key b) : key b < key a :=
  Std.lt_of_le_of_ne (List.not_lt.1 h) fun he => hne (key_injective he.symm)

theorem mem_insert {name : String} {value : α} {e : String × α} {es : Entries α}
    (h : e ∈ insert name value es) : e = (name, value) ∨ e ∈ es := by
  induction es with
  | nil => simpa [insert] using h
  | cons f rest ih =>
    rw [insert] at h
    split at h
    · rcases List.mem_cons.1 h with h | h
      · exact .inl h
      · exact .inr (List.mem_cons_of_mem _ h)
    · split at h
      · simpa using h
      · rcases List.mem_cons.1 h with h | h
        · exact .inr (h ▸ List.mem_cons_self)
        · exact (ih h).imp_right (List.mem_cons_of_mem _)

theorem ordered_insert (name : String) (value : α) {es : Entries α}
    (h : Ordered es) : Ordered (insert name value es) := by
  induction es with
  | nil => exact List.pairwise_singleton _ _
  | cons f rest ih =>
    obtain ⟨hf, hrest⟩ := List.pairwise_cons.1 h
    rw [insert]
    split
    · next heq => exact List.pairwise_cons.2 ⟨fun e he => heq ▸ hf e he, hrest⟩
    · next hne =>
      split
      · next hlt =>
        refine List.pairwise_cons.2 ⟨fun e he => ?_, h⟩
        rcases List.mem_cons.1 he with rfl | he
        · exact hlt
        · exact List.lt_trans hlt (hf e he)
      · next hge =>
        refine List.pairwise_cons.2 ⟨fun e he => ?_, ih hrest⟩
        rcases mem_insert he with rfl | he
        · exact key_lt_of_not_lt hne hge
        · exact hf e he

theorem lookup_insert (name other : String) (value : α) (es : Entries α) :
    lookup other (insert name value es) =
      if other = name then some value else lookup other es := by
  induction es with
  | nil => rfl
  | cons f rest ih =>
    rw [insert]
    split
    · next heq => by_cases h : other = name <;> simp [lookup, h, ← heq]
    · next hne =>
      split
      · rfl
      · rw [lookup, lookup, ih]
        by_cases h : other = name
        · simp [h, hne]
        · simp [h]

/-- A name that stands before every entry is bound by none. -/
theorem lookup_eq_none_of_lt {name : String} {es : Entries α}
    (h : ∀ e ∈ es, key name < key e.1) : lookup name es = none := by
  induction es with
  | nil => rfl
  | cons f rest ih =>
    have hne : name ≠ f.1 := fun heq => List.lt_irrefl _ (heq ▸ h f List.mem_cons_self)
    simp [lookup, hne, ih fun e he => h e (List.mem_cons_of_mem _ he)]

/-- A first name that an ordered list looks up cannot stand before all of that list. -/
theorem not_key_lt_of_lookup {a b : String × α} {as bs : Entries α}
    (hb : Ordered (b :: bs)) (h : lookup a.1 (a :: as) = lookup a.1 (b :: bs)) :
    ¬ key a.1 < key b.1 := by
  intro hlt
  have hnone : lookup a.1 (b :: bs) = none := lookup_eq_none_of_lt fun e he => by
    rcases List.mem_cons.1 he with rfl | he
    · exact hlt
    · exact List.lt_trans hlt ((List.pairwise_cons.1 hb).1 e he)
  rw [hnone] at h
  simp [lookup] at h

/-- Ordered lists that look up alike are equal. -/
theorem eq_of_lookup {as bs : Entries α} (ha : Ordered as) (hb : Ordered bs)
    (h : ∀ name, lookup name as = lookup name bs) : as = bs := by
  induction as generalizing bs with
  | nil =>
    cases bs with
    | nil => rfl
    | cons b bs => simpa [lookup] using h b.1
  | cons a as ih =>
    cases bs with
    | nil => simpa [lookup] using h a.1
    | cons b bs =>
      have hname : a.1 = b.1 := Classical.byContradiction fun hne =>
        not_key_lt_of_lookup ha (h b.1).symm
          (key_lt_of_not_lt hne (not_key_lt_of_lookup hb (h a.1)))
      have hvalue : a.2 = b.2 := by simpa [lookup, hname] using h a.1
      obtain ⟨hfa, hra⟩ := List.pairwise_cons.1 ha
      obtain ⟨hfb, hrb⟩ := List.pairwise_cons.1 hb
      have hrest : as = bs := by
        refine ih hra hrb fun name => ?_
        by_cases hn : name = a.1
        · rw [hn, lookup_eq_none_of_lt hfa, lookup_eq_none_of_lt (hname ▸ hfb)]
        · simpa [lookup, hn, hname ▸ hn] using h name
      rw [hrest, show a = b from Prod.ext hname hvalue]

end Entries

end Reckon
