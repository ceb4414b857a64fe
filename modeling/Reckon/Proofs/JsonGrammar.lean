import Reckon.Proofs.ToolCalls
import Reckon.Proofs.Writes

/-!
# How JSON is spelled

A grammar of JSON texts. Numbers and the inside of strings are left to their readers; everything
else is said about characters: blanks, literals, and arrays and objects as rows of parts with commas
between them. An object is spelled by its members in any order, and with any name any number of
times: the value keeps of every name the last one.

* `Spells`: the texts that start with a value.
* `Lists`: the texts of an object, by all the members that stand in it.
* `parse_eq_ok_iff`: the reader against the grammar, in both directions.
* `lookup_collect`: which of the members with one name counts.
-/

namespace Reckon.Json

variable {offset room : Nat} {cs rest : List Char} {j : Json}

/-! ## Strings and numbers

What is read does not depend on the offset at which the text is taken to start. -/

/-- Wherever the text starts, the reader finds a value at its front, and then `rest`. -/
def Finds {α : Type} (read : Nat → (cs : List Char) → Except Fault (Read α cs)) (cs : List Char)
    (a : α) (rest : List Char) : Prop :=
  ∀ offset, ∃ r, read offset cs = .ok r ∧ r.value = a ∧ r.rest = rest

theorem finds_hex {r : Read Nat cs} (h : readHex offset cs = .ok r) :
    Finds readHex cs r.value r.rest := by
  intro offset'
  unfold readHex at h ⊢
  split at h
  · cases h
  · next hroom =>
    rw [if_neg hroom]
    split at h
    · split at h
      · cases h
        exact ⟨_, rfl, rfl, rfl⟩
      · cases h
    · cases h

theorem finds_trailing {leading : Nat} {r : Read Char cs}
    (h : readTrailing offset leading cs = .ok r) :
    Finds (readTrailing · leading) cs r.value r.rest := by
  intro offset'
  unfold readTrailing at h ⊢
  split at h
  · cases h
  · cases h
  · obtain ⟨hex, hhex, h⟩ := Server.bind_eq_ok.mp h
    obtain ⟨hex', hhex', hvalue, hrest⟩ := finds_hex hhex (offset' + 2)
    split at h
    · next htrailing =>
      obtain rfl := Except.ok.inj h
      simp only [hhex', hvalue, htrailing, bind, Except.bind, if_true]
      exact ⟨_, rfl, rfl, hrest⟩
    · cases h
  · cases h
  · cases h

theorem finds_escape {r : Read Char cs} (h : readEscape offset cs = .ok r) :
    Finds readEscape cs r.value r.rest := by
  intro offset'
  unfold readEscape at h ⊢
  split at h
  · cases h
  · split at h
    · obtain rfl := Except.ok.inj h
      exact ⟨_, rfl, rfl, rfl⟩
    · split at h
      · next hu =>
        obtain ⟨hex, hhex, h⟩ := Server.bind_eq_ok.mp h
        obtain ⟨⟨_, end₁, _, hshort⟩, hhex', rfl, rfl⟩ := finds_hex hhex (offset' + 1)
        simp only [hu, if_true, hhex', bind, Except.bind]
        split at h
        · cases h
        · next htrailing =>
          rw [if_neg htrailing]
          split at h
          · next hleading =>
            rw [if_pos hleading]
            obtain ⟨t, ht, h⟩ := Server.bind_eq_ok.mp h
            obtain rfl := Except.ok.inj h
            obtain ⟨t', ht', hvalue, hrest⟩ := finds_trailing ht end₁
            simp only [ht']
            exact ⟨_, rfl, hvalue, hrest⟩
          · next hleading =>
            rw [if_neg hleading]
            obtain rfl := Except.ok.inj h
            exact ⟨_, rfl, rfl, rfl⟩
      · cases h

theorem finds_string {r : Read (List Char) cs} (h : readString offset cs = .ok r) :
    ReadsString cs r.value r.rest := by
  induction hn : cs.length using Nat.strongRecOn generalizing offset cs with
  | ind n ih =>
    subst hn
    rw [readString] at h
    split at h
    · cases h
    · next hquote =>
      obtain rfl := Except.ok.inj h
      exact readsString_of_quote hquote
    · next hescape =>
      obtain ⟨c, hc, h⟩ := Server.bind_eq_ok.mp h
      obtain ⟨more, hmore, h⟩ := Server.bind_eq_ok.mp h
      obtain rfl := Except.ok.inj h
      have hlt := Nat.lt_trans c.shorter (Front.length_lt_of_dropWhile hescape)
      exact readsString_of_escape hescape (finds_escape hc) (ih _ hlt hmore rfl)
    · cases h

theorem ite_error_eq_ok {ε α : Type} {p : Prop} [Decidable p] {e : ε} {x : Except ε α} {a : α} :
    (if p then .error e else x) = .ok a ↔ ¬ p ∧ x = .ok a := by
  by_cases hp : p <;> simp [hp]

theorem scanExponent_eq_ok {count : Nat} {x : Option (Bool × List Char) × Nat} (offset' : Nat)
    (h : Numeral.scanExponent offset count cs = .ok x) :
    Numeral.scanExponent offset' count cs = .ok x := by
  unfold Numeral.scanExponent at h ⊢
  split at h
  · exact h
  · simp only at h ⊢
    split at h
    · next he =>
      rw [if_pos he]
      simp only [ite_error_eq_ok] at h ⊢
      exact h
    · next he =>
      rw [if_neg he]
      exact h

theorem scan_eq_ok {negative : Bool} {x : Numeral × Nat} (offset' : Nat)
    (h : Numeral.scan negative offset cs = .ok x) : Numeral.scan negative offset' cs = .ok x := by
  unfold Numeral.scan at h ⊢
  simp only [ite_error_eq_ok] at h ⊢
  obtain ⟨hne, hdigits, hzero, h⟩ := h
  refine ⟨hne, hdigits, hzero, ?_⟩
  split at h
  · simp only [ite_error_eq_ok] at h ⊢
    obtain ⟨hrest, hfraction, h⟩ := h
    obtain ⟨e, he, h⟩ := Server.bind_eq_ok.mp h
    refine ⟨hrest, hfraction, ?_⟩
    rw [scanExponent_eq_ok offset' he]
    exact h
  · obtain ⟨e, he, h⟩ := Server.bind_eq_ok.mp h
    rw [scanExponent_eq_ok offset' he]
    exact h

theorem value_eq_ok {n : Numeral} {j : Json} (offset' : Nat) (h : n.value offset = .ok j) :
    n.value offset' = .ok j := by
  unfold Numeral.value at h ⊢
  simp only at h ⊢
  split at h
  · next hwhole =>
    rw [if_pos hwhole]
    exact h
  · next hwhole =>
    rw [if_neg hwhole]
    split at h
    · split at h
      · exact h
      · cases h
    · split at h
      · next hexponent =>
        rw [if_pos hexponent]
        split at h
        · exact h
        · cases h
      · next hexponent =>
        rw [if_neg hexponent]
        split at h
        · next hzero =>
          rw [if_pos hzero]
          exact h
        · cases h

theorem finds_number {negative : Bool} {r : Read Json cs}
    (h : readNumber negative offset cs = .ok r) :
    Finds (readNumber negative) cs r.value r.rest := by
  intro offset'
  unfold readNumber at h ⊢
  split at h
  · cases h
  · obtain ⟨⟨numeral, count⟩, hscan, h⟩ := Server.bind_eq_ok.mp h
    obtain ⟨j, hj, h⟩ := Server.bind_eq_ok.mp h
    obtain rfl := Except.ok.inj h
    simp only [scan_eq_ok offset' hscan, value_eq_ok (offset' + count) hj, bind, Except.bind]
    exact ⟨_, rfl, rfl, rfl⟩

/-! ## The grammar -/

/-- Values without parts. -/
inductive Scalar : List Char → Json → List Char → Prop where
  | null {rest : List Char} : Scalar ('n' :: 'u' :: 'l' :: 'l' :: rest) .null rest
  | yes {rest : List Char} : Scalar ('t' :: 'r' :: 'u' :: 'e' :: rest) (.bool true) rest
  | no {rest : List Char} : Scalar ('f' :: 'a' :: 'l' :: 's' :: 'e' :: rest) (.bool false) rest
  | string {cs s rest : List Char} (h : ReadsString cs s rest) :
      Scalar ('"' :: cs) (.string (String.ofList s)) rest
  | negative {cs rest : List Char} {j : Json} (h : Finds (readNumber true) cs j rest) :
      Scalar ('-' :: cs) j rest
  | number {c : Char} {cs rest : List Char} {j : Json} (hc : c.isDigit = true)
      (h : Finds (readNumber false) (c :: cs) j rest) : Scalar (c :: cs) j rest

/-- Parts with commas between them, up to a closing sign. -/
inductive Row {α : Type} (part : List Char → α → List Char → Prop) (close : Char) :
    List Char → List α → List Char → Prop where
  | last {cs tail rest : List Char} {a : α} (h : part cs a tail)
      (hclose : dropBlanks tail = close :: rest) : Row part close cs [a] rest
  | cons {cs tail more rest : List Char} {a : α} {as : List α} (h : part cs a tail)
      (hcomma : dropBlanks tail = ',' :: more) (hmore : Row part close more as rest) :
      Row part close cs (a :: as) rest

/-- A row that may be empty. -/
def Body {α : Type} (part : List Char → α → List Char → Prop) (close : Char) (cs : List Char)
    (as : List α) (rest : List Char) : Prop :=
  as = [] ∧ dropBlanks cs = close :: rest ∨ Row part close cs as rest

/-- A name, a colon and a value. -/
def Member (value : List Char → Json → List Char → Prop) (cs : List Char) (m : String × Json)
    (rest : List Char) : Prop :=
  ∃ text name colon body, dropBlanks cs = '"' :: text ∧ ReadsString text name colon ∧
    dropBlanks colon = ':' :: body ∧ m.1 = String.ofList name ∧ value body m.2 rest

/-- The members in the order of their names, the last one of every name. -/
def collect (before : Entries Json) (ms : List (String × Json)) : Entries Json :=
  ms.foldl (fun entries m => entries.insert m.1 m.2) before

inductive Composite (value : List Char → Json → List Char → Prop) :
    List Char → Json → List Char → Prop where
  | array {cs rest : List Char} {items : List Json} (h : Body value ']' cs items rest) :
      Composite value ('[' :: cs) (.array items) rest
  | object {cs rest : List Char} {ms : List (String × Json)}
      (h : Body (Member value) '\x7d' cs ms rest) :
      Composite value ('\x7b' :: cs) (.object (collect [] ms)) rest

/-- The text starts with the value, behind blanks, and goes on with `rest`. No more than `room`
arrays and objects nest. -/
def Spells : Nat → List Char → Json → List Char → Prop
  | 0, cs, j, rest => Scalar (dropBlanks cs) j rest
  | room + 1, cs, j, rest =>
    Scalar (dropBlanks cs) j rest ∨ Composite (Spells room) (dropBlanks cs) j rest

theorem Spells.scalar {ds : List Char} (hd : dropBlanks cs = ds) (h : Scalar ds j rest) :
    Spells room cs j rest := by
  subst hd
  cases room with
  | zero => exact h
  | succ room => exact .inl h

theorem Spells.composite {ds : List Char} (hd : dropBlanks cs = ds)
    (h : Composite (Spells room) ds j rest) : Spells (room + 1) cs j rest := by
  subst hd
  exact .inr h

theorem dropBlanks_dropBlanks (cs : List Char) : dropBlanks (dropBlanks cs) = dropBlanks cs := by
  induction cs with
  | nil => rfl
  | cons c cs ih =>
    by_cases hc : isBlank c = true
    · simpa [dropBlanks, hc] using ih
    · simp [dropBlanks, hc]

/-- Blanks in front of a value make no difference. -/
theorem spells_iff_of_dropBlanks {ds : List Char} (hd : dropBlanks cs = ds) :
    Spells room ds j rest ↔ Spells room cs j rest := by
  subst hd
  cases room with
  | zero => simp only [Spells, dropBlanks_dropBlanks]
  | succ room => simp only [Spells, dropBlanks_dropBlanks]

/-! ## What is read is spelled -/

/-- The value that is read at any offset is spelled by the text. -/
def Sound (room : Nat) : Prop :=
  ∀ {offset cs} {r : Read Json cs}, readValue room offset cs = .ok r → Spells room cs r.value r.rest

theorem row_of_readItems (hv : Sound room) {first : Bool} {r : Read (List Json) cs}
    (h : readItems room first offset cs = .ok r) :
    (first = true ∧ r.value = [] ∧ dropBlanks cs = ']' :: r.rest) ∨
      Row (Spells room) ']' cs r.value r.rest := by
  induction hn : cs.length using Nat.strongRecOn generalizing offset cs first with
  | ind n ih =>
    subst hn
    rw [readItems] at h
    split at h
    · cases h
    · next hclose =>
      split at h
      · next hfirst =>
        obtain rfl := Except.ok.inj h
        exact .inl ⟨hfirst, rfl, hclose⟩
      · cases h
    · next hopen =>
      obtain ⟨item, hitem, h⟩ := Server.bind_eq_ok.mp h
      have hspells := (spells_iff_of_dropBlanks hopen).mp (hv hitem)
      split at h
      · cases h
      · next hclose =>
        obtain rfl := Except.ok.inj h
        exact .inr (.last hspells hclose)
      · next hcomma =>
        obtain ⟨more, hmore, h⟩ := Server.bind_eq_ok.mp h
        obtain rfl := Except.ok.inj h
        rcases ih _ (length_after_item_lt hopen item hcomma) hmore rfl with ⟨hfirst, -⟩ | hrow
        · cases hfirst
        · exact .inr (.cons hspells hcomma hrow)
      · cases h

theorem row_of_readMembers (hv : Sound room) {first : Bool} {before : Entries Json}
    {r : Read (Entries Json) cs} (h : readMembers room first before offset cs = .ok r) :
    (first = true ∧ r.value = before ∧ dropBlanks cs = '\x7d' :: r.rest) ∨
      ∃ ms, Row (Member (Spells room)) '\x7d' cs ms r.rest ∧ r.value = collect before ms := by
  induction hn : cs.length using Nat.strongRecOn generalizing offset cs first before with
  | ind n ih =>
    subst hn
    rw [readMembers] at h
    split at h
    · cases h
    · next hclose =>
      split at h
      · next hfirst =>
        obtain rfl := Except.ok.inj h
        exact .inl ⟨hfirst, rfl, hclose⟩
      · cases h
    · next hopen =>
      obtain ⟨name, hname, h⟩ := Server.bind_eq_ok.mp h
      split at h
      · cases h
      · next hcolon =>
        obtain ⟨value, hvalue, h⟩ := Server.bind_eq_ok.mp h
        have hmember : Member (Spells room) cs (String.ofList name.value, value.value) value.rest :=
          ⟨_, _, _, _, hopen, finds_string hname, hcolon, rfl, hv hvalue⟩
        split at h
        · cases h
        · next hclose =>
          obtain rfl := Except.ok.inj h
          exact .inr ⟨_, .last hmember hclose, rfl⟩
        · next hcomma =>
          obtain ⟨more, hmore, h⟩ := Server.bind_eq_ok.mp h
          obtain rfl := Except.ok.inj h
          rcases ih _ (length_after_value_lt hopen name hcolon value hcomma) hmore rfl with
            ⟨hfirst, -⟩ | ⟨ms, hrow, hms⟩
          · cases hfirst
          · exact .inr ⟨_, .cons hmember hcomma hrow, hms⟩
        · cases h
      · cases h
    · cases h

theorem body_of_readMembers (hv : Sound room) {r : Read (Entries Json) cs}
    (h : readMembers room true [] offset cs = .ok r) :
    ∃ ms, Body (Member (Spells room)) '\x7d' cs ms r.rest ∧ r.value = collect [] ms := by
  rcases row_of_readMembers hv h with ⟨-, hnil, hclose⟩ | ⟨ms, hrow, hms⟩
  · exact ⟨[], .inl ⟨rfl, hclose⟩, hnil⟩
  · exact ⟨ms, .inr hrow, hms⟩

theorem spells_of_readValue {r : Read Json cs} (hv : ∀ inner, room = inner + 1 → Sound inner)
    (h : readValue room offset cs = .ok r) : Spells room cs r.value r.rest := by
  rw [readValue] at h
  split at h
  · cases h
  · next hd =>
    obtain rfl := Except.ok.inj h
    exact .scalar hd .null
  · next hd =>
    obtain rfl := Except.ok.inj h
    exact .scalar hd .yes
  · next hd =>
    obtain rfl := Except.ok.inj h
    exact .scalar hd .no
  · cases h
  · cases h
  · cases h
  · next hd =>
    obtain ⟨s, hs, h⟩ := Server.bind_eq_ok.mp h
    obtain rfl := Except.ok.inj h
    exact .scalar hd (.string (finds_string hs))
  · next hd =>
    obtain ⟨n, hn, h⟩ := Server.bind_eq_ok.mp h
    obtain rfl := Except.ok.inj h
    exact .scalar hd (.negative (finds_number hn))
  · next hd =>
    split at h
    · cases h
    · obtain ⟨items, hitems, h⟩ := Server.bind_eq_ok.mp h
      obtain rfl := Except.ok.inj h
      refine .composite hd (.array ?_)
      rcases row_of_readItems (hv _ rfl) hitems with ⟨-, hnil, hclose⟩ | hrow
      · exact .inl ⟨hnil, hclose⟩
      · exact .inr hrow
  · next hd =>
    split at h
    · cases h
    · obtain ⟨members, hmembers, h⟩ := Server.bind_eq_ok.mp h
      obtain rfl := Except.ok.inj h
      obtain ⟨ms, hbody, hms⟩ := body_of_readMembers (hv _ rfl) hmembers
      have hobject := Composite.object hbody
      rw [← hms] at hobject
      exact .composite hd hobject
  · next hd =>
    split at h
    · next hc =>
      obtain ⟨n, hn, h⟩ := Server.bind_eq_ok.mp h
      obtain rfl := Except.ok.inj h
      exact .scalar hd (.number hc (finds_number hn))
    · cases h

theorem sound (room : Nat) : Sound room := by
  induction room with
  | zero => exact fun h => spells_of_readValue nofun h
  | succ room ih =>
    refine fun h => spells_of_readValue ?_ h
    rintro inner ⟨⟩
    exact ih

/-! ## What is spelled is read -/

theorem readsValue_of_scalar (h : Scalar (dropBlanks cs) j rest) : ReadsValue room cs j rest := by
  intro offset
  rw [readValue]
  -- the first sign leaves one way to spell the value, and only a digit starts a number
  split
  · next hd =>
    rw [hd] at h
    cases h
  · next hd =>
    rw [hd] at h
    cases h with
    | null => exact ⟨_, rfl, rfl, rfl⟩
    | number hc => exact absurd hc (by decide)
  · next hd =>
    rw [hd] at h
    cases h with
    | yes => exact ⟨_, rfl, rfl, rfl⟩
    | number hc => exact absurd hc (by decide)
  · next hd =>
    rw [hd] at h
    cases h with
    | no => exact ⟨_, rfl, rfl, rfl⟩
    | number hc => exact absurd hc (by decide)
  · next hnull hd =>
    rw [hd] at h
    cases h with
    | null => exact (hnull _ rfl).elim
    | number hc => exact absurd hc (by decide)
  · next htrue hd =>
    rw [hd] at h
    cases h with
    | yes => exact (htrue _ rfl).elim
    | number hc => exact absurd hc (by decide)
  · next hfalse hd =>
    rw [hd] at h
    cases h with
    | no => exact (hfalse _ rfl).elim
    | number hc => exact absurd hc (by decide)
  · next hd =>
    rw [hd] at h
    cases h with
    | string hs =>
      obtain ⟨r, hr, rfl, rfl⟩ := hs (blanksEnd offset cs + 1)
      simp only [hr, bind, Except.bind]
      exact ⟨_, rfl, rfl, rfl⟩
    | number hc => exact absurd hc (by decide)
  · next hd =>
    rw [hd] at h
    cases h with
    | negative hn =>
      obtain ⟨r, hr, rfl, rfl⟩ := hn (blanksEnd offset cs + 1)
      simp only [hr, bind, Except.bind]
      exact ⟨_, rfl, rfl, rfl⟩
    | number hc => exact absurd hc (by decide)
  · next hd =>
    rw [hd] at h
    cases h with
    | number hc => exact absurd hc (by decide)
  · next hd =>
    rw [hd] at h
    cases h with
    | number hc => exact absurd hc (by decide)
  · next hn ht hf hquote hminus _ _ hd =>
    rw [hd] at h
    cases h with
    | null => exact (hn rfl).elim
    | yes => exact (ht rfl).elim
    | no => exact (hf rfl).elim
    | string => exact (hquote rfl).elim
    | negative => exact (hminus rfl).elim
    | number hc hnumber =>
      obtain ⟨r, hr, rfl, rfl⟩ := hnumber (blanksEnd offset cs)
      simp only [hc, if_true, hr, bind, Except.bind]
      exact ⟨_, rfl, rfl, rfl⟩

/-- What is spelled with so much room is read with it. -/
def Complete (room : Nat) : Prop :=
  ∀ {cs j rest}, Spells room cs j rest → ReadsValue room cs j rest

theorem readsValue_of_composite
    (hitems : ∀ {cs items rest}, Body (Spells room) ']' cs items rest →
      Finds (readItems room true) cs items rest)
    (hmembers : ∀ {cs ms rest}, Body (Member (Spells room)) '\x7d' cs ms rest →
      ReadsMembers room true [] cs (collect [] ms) rest)
    (h : Composite (Spells room) (dropBlanks cs) j rest) : ReadsValue (room + 1) cs j rest := by
  intro offset
  rw [readValue]
  split
  case h_10 hd =>
    rw [hd] at h
    cases h with
    | array hbody =>
      obtain ⟨r, hr, rfl, rfl⟩ := hitems hbody (blanksEnd offset cs + 1)
      simp only [hr, bind, Except.bind]
      exact ⟨_, rfl, rfl, rfl⟩
  case h_11 hd =>
    rw [hd] at h
    cases h with
    | object hbody =>
      obtain ⟨r, hr, hvalue, rfl⟩ := hmembers hbody (blanksEnd offset cs + 1)
      simp only [hr, bind, Except.bind]
      exact ⟨_, rfl, congrArg Json.object hvalue, rfl⟩
  case h_12 harray hobject hd =>
    rw [hd] at h
    cases h with
    | array => exact (harray rfl).elim
    | object => exact (hobject rfl).elim
  all_goals
    rename_i hd
    rw [hd] at h
    cases h

/-- A value starts with some sign, but not with the end of an array. -/
theorem Spells.exists_head (h : Spells room cs j rest) :
    ∃ c tail, dropBlanks cs = c :: tail ∧ c ≠ ']' := by
  have hscalar : ∀ {ds}, Scalar ds j rest → ∃ c tail, ds = c :: tail ∧ c ≠ ']' := by
    intro ds h
    cases h with
    | @number c _ _ _ hc =>
      refine ⟨c, _, rfl, ?_⟩
      rintro rfl
      exact absurd hc (by decide)
    | _ => exact ⟨_, _, rfl, by decide⟩
  cases room with
  | zero => exact hscalar h
  | succ room =>
    rcases h with h | h
    · exact hscalar h
    · generalize dropBlanks cs = ds at h
      cases h with
      | array => exact ⟨_, _, rfl, by decide⟩
      | object => exact ⟨_, _, rfl, by decide⟩

/-- An item of an array, and what stands behind it: the end of the array, or a comma and further
items. -/
theorem findsItems_cons (hv : Complete room) {first : Bool} {after : List Char} {items : List Json}
    (hj : Spells room cs j after)
    (hafter : dropBlanks after = ']' :: rest ∧ items = [j] ∨
      ∃ tail more, dropBlanks after = ',' :: tail ∧ Finds (readItems room false) tail more rest ∧
        items = j :: more) :
    Finds (readItems room first) cs items rest := by
  intro offset
  obtain ⟨c, tail, hd, hc⟩ := hj.exists_head
  rw [readItems]
  split
  · next h => rw [hd] at h; cases h
  · next h =>
    rw [hd] at h
    cases h
    exact absurd rfl hc
  · next h =>
    obtain ⟨r, hr, rfl, rfl⟩ := hv ((spells_iff_of_dropBlanks h).mpr hj) (blanksEnd offset cs)
    simp only [hr, bind, Except.bind]
    rcases hafter with ⟨hclose, rfl⟩ | ⟨tail, more, hcomma, hmore, rfl⟩
    · split
      · next h => rw [hclose] at h; cases h
      · next h =>
        rw [hclose] at h
        cases h
        exact ⟨_, rfl, rfl, rfl⟩
      · next h => rw [hclose] at h; cases h
      · next h _ => exact absurd hclose (h rest)
    · obtain ⟨w, hw, rfl, rfl⟩ := hmore (blanksEnd r.offset r.rest + 1)
      split
      · next h => rw [hcomma] at h; cases h
      · next h => rw [hcomma] at h; cases h
      · next h =>
        rw [hcomma] at h
        cases h
        simp only [hw]
        exact ⟨_, rfl, rfl, rfl⟩
      · next h => exact absurd hcomma (h tail)

theorem findsItems_of_row (hv : Complete room) {first : Bool} {items : List Json}
    (h : Row (Spells room) ']' cs items rest) : Finds (readItems room first) cs items rest := by
  induction h generalizing first with
  | last hj hclose => exact findsItems_cons hv hj (.inl ⟨hclose, rfl⟩)
  | cons hj hcomma _ ih => exact findsItems_cons hv hj (.inr ⟨_, _, hcomma, ih, rfl⟩)

theorem readsMembers_of_row (hv : Complete room) {first : Bool} {before : Entries Json}
    {ms : List (String × Json)} (h : Row (Member (Spells room)) '\x7d' cs ms rest) :
    ReadsMembers room first before cs (collect before ms) rest := by
  induction h generalizing first before with
  | last hm hclose =>
    obtain ⟨_, _, _, _, hopen, hname, hcolon, heq, hvalue⟩ := hm
    refine readsMembers_cons hopen hname hcolon (hv hvalue) (.inl ⟨hclose, ?_⟩)
    rw [← heq]
    rfl
  | cons hm hcomma _ ih =>
    obtain ⟨_, _, _, _, hopen, hname, hcolon, heq, hvalue⟩ := hm
    refine readsMembers_cons hopen hname hcolon (hv hvalue) (.inr ⟨_, hcomma, ?_⟩)
    rw [← heq]
    exact ih

theorem findsItems_of_body (hv : Complete room) {items : List Json}
    (h : Body (Spells room) ']' cs items rest) : Finds (readItems room true) cs items rest := by
  rcases h with ⟨rfl, hclose⟩ | hrow
  · intro offset
    rw [readItems]
    split
    · next h => rw [hclose] at h; cases h
    · next h =>
      rw [hclose] at h
      cases h
      exact ⟨_, rfl, rfl, rfl⟩
    · next hne h =>
      rw [hclose] at h
      cases h
      exact (hne rfl).elim
  · exact findsItems_of_row hv hrow

theorem readsMembers_of_body (hv : Complete room) {ms : List (String × Json)}
    (h : Body (Member (Spells room)) '\x7d' cs ms rest) :
    ReadsMembers room true [] cs (collect [] ms) rest := by
  rcases h with ⟨rfl, hclose⟩ | hrow
  · intro offset
    rw [readMembers]
    split
    · next h => rw [hclose] at h; cases h
    · next h =>
      rw [hclose] at h
      cases h
      exact ⟨_, rfl, rfl, rfl⟩
    · next h => rw [hclose] at h; cases h
    · next h _ => exact absurd hclose (h rest)
  · exact readsMembers_of_row hv hrow

theorem complete (room : Nat) : Complete room := by
  induction room with
  | zero => exact fun h => readsValue_of_scalar h
  | succ room ih =>
    rintro cs j rest (h | h)
    · exact readsValue_of_scalar h
    · exact readsValue_of_composite (findsItems_of_body ih) (readsMembers_of_body ih) h

/-! ## Texts -/

/-- The text is one value with blanks around it. -/
def Spelled (text : String) (j : Json) : Prop :=
  ∃ rest, Spells maxDepth text.toList j rest ∧ dropBlanks rest = []

/-- The text is one object with blanks around it, and these are its members as they stand there. One
level of nesting is taken by the object itself. -/
def Lists (text : String) (ms : List (String × Json)) : Prop :=
  ∃ body rest, dropBlanks text.toList = '\x7b' :: body ∧
    Body (Member (Spells 126)) '\x7d' body ms rest ∧ dropBlanks rest = []

theorem readText_eq_ok_iff : readText cs = .ok j ↔
    ∃ rest, Spells maxDepth cs j rest ∧ dropBlanks rest = [] := by
  constructor
  · intro h
    obtain ⟨r, hr, h⟩ := Server.bind_eq_ok.mp h
    split at h
    · next hrest =>
      obtain rfl := Except.ok.inj h
      exact ⟨r.rest, sound maxDepth hr, hrest⟩
    · cases h
  · rintro ⟨rest, hspells, hrest⟩
    obtain ⟨r, hr, rfl, rfl⟩ := complete maxDepth hspells 0
    simp only [readText, hr, bind, Except.bind, hrest]
    rfl

/-- The reader accepts exactly the texts of the grammar. -/
theorem parse_eq_ok_iff {text : String} : Json.parse text = .ok j ↔ Spelled text j := by
  rw [Spelled, ← readText_eq_ok_iff, parse]
  exact mapError_eq_ok

theorem value_ne_object {n : Numeral} {members : List (String × Json)} :
    n.value offset ≠ .ok (.object members) := by
  intro h
  unfold Numeral.value at h
  simp only at h
  repeat' split at h
  all_goals cases h

theorem number_ne_object {negative : Bool} {members : List (String × Json)}
    (h : Finds (readNumber negative) cs j rest) : j ≠ .object members := by
  rintro rfl
  obtain ⟨r, hr, hvalue, -⟩ := h 0
  unfold readNumber at hr
  split at hr
  · cases hr
  · obtain ⟨⟨numeral, count⟩, -, hr⟩ := Server.bind_eq_ok.mp hr
    obtain ⟨j, hj, hr⟩ := Server.bind_eq_ok.mp hr
    obtain rfl := Except.ok.inj hr
    rw [show j = _ from hvalue] at hj
    exact value_ne_object hj

theorem Scalar.ne_object {members : List (String × Json)} (h : Scalar cs j rest) :
    j ≠ .object members := by
  cases h with
  | negative h => exact number_ne_object h
  | number _ h => exact number_ne_object h
  | _ => nofun

theorem spelled_object_iff {text : String} {members : Entries Json} :
    Spelled text (.object members) ↔ ∃ ms, Lists text ms ∧ members = collect [] ms := by
  constructor
  · rintro ⟨rest, h | h, hrest⟩
    · exact absurd rfl h.ne_object
    · generalize hd : dropBlanks text.toList = ds at h
      cases h with
      | object hbody => exact ⟨_, ⟨_, _, hd, hbody, hrest⟩, rfl⟩
  · rintro ⟨ms, ⟨body, rest, hd, hbody, hrest⟩, rfl⟩
    exact ⟨rest, .composite hd (.object hbody), hrest⟩

/-- The value of the last member with a name. -/
def latest (name : String) (ms : List (String × Json)) : Option Json :=
  Entries.lookup name ms.reverse

theorem lookup_collect (name : String) (before : Entries Json) (ms : List (String × Json)) :
    Entries.lookup name (collect before ms) = (latest name ms).or (Entries.lookup name before) := by
  induction ms generalizing before with
  | nil => rfl
  | cons m ms ih =>
    have hlast : latest name (m :: ms) = (latest name ms).or (Entries.lookup name [m]) := by
      rw [latest, List.reverse_cons, Entries.lookup_append]
      rfl
    have hinsert : Entries.lookup name (before.insert m.1 m.2) =
        (Entries.lookup name [m]).or (Entries.lookup name before) := by
      rw [Entries.lookup_insert]
      simp only [Entries.lookup]
      split <;> rfl
    rw [hlast, Option.or_assoc, ← hinsert]
    exact ih (before.insert m.1 m.2)

theorem lookup_collect_nil (name : String) (ms : List (String × Json)) :
    Entries.lookup name (collect [] ms) = latest name ms := by
  rw [lookup_collect]
  exact Option.or_none

theorem parse_of_lists {text : String} {ms : List (String × Json)} (h : Lists text ms) :
    Json.parse text = .ok (.object (collect [] ms)) :=
  parse_eq_ok_iff.mpr (spelled_object_iff.mpr ⟨ms, h, rfl⟩)

theorem exists_lists {text : String} {members : Entries Json}
    (h : Json.parse text = .ok (.object members)) :
    ∃ ms, Lists text ms ∧ members = collect [] ms :=
  spelled_object_iff.mp (parse_eq_ok_iff.mp h)

/-- However a text is taken apart, the members that count are the same. -/
theorem latest_unique {text : String} {ms ms' : List (String × Json)} (h : Lists text ms)
    (h' : Lists text ms') (name : String) : latest name ms = latest name ms' := by
  have heq := (parse_of_lists h).symm.trans (parse_of_lists h')
  rw [← lookup_collect_nil, ← lookup_collect_nil, Json.object.inj (Except.ok.inj heq)]

end Reckon.Json
