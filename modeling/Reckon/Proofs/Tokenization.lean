import Reckon.Failure

/-!
# Tokens are cut by longest match

A *cut* of a text is a list of tokens that stand in it one after the other, each spelled as its kind
asks and none of them cut short, with nothing but separators between them. All of this is said about
characters and the byte offsets at which they stand, without the reader of tokens.

* `Leads.unique`: at one place of a text at most one token can stand. Its first character tells
  whether it is a numeral, a word or a sign, and the other characters are a longest run.
* `cut_blank_iff`, `Leads.cut_iff`: a cut starts behind a separator, or with the token at the front.
* `Cut.unique`, `lexFrom_cut`: a text has at most one cut, and the reader finds it.
* `lexFrom_foreign`: the reader stops at the first character of no token, and nowhere else.
-/

namespace Reckon

/-- The byte at a position belongs to the range. -/
def Span.Covers (s : Span) (position : Nat) : Prop :=
  s.start ≤ position ∧ position < s.stop

namespace Token

/-! ## The alphabet -/

def Separator (c : Char) : Prop :=
  c ∈ [' ', '\t', '\r', '\n', '\x0c', '\x0b']

def Digit (c : Char) : Prop :=
  '0' ≤ c ∧ c ≤ '9'

def Letter (c : Char) : Prop :=
  ('a' ≤ c ∧ c ≤ 'z') ∨ ('A' ≤ c ∧ c ≤ 'Z')

def NameStart (c : Char) : Prop :=
  Letter c ∨ c = '_'

def NamePart (c : Char) : Prop :=
  Letter c ∨ Digit c ∨ c = '_'

def Sign (c : Char) : Prop :=
  c ∈ ['=', '+', '-', '*', '/', '%', '^', '!', '(', ')']

/-- The characters that a text may hold. -/
def InAlphabet (c : Char) : Prop :=
  Separator c ∨ NamePart c ∨ Sign c

instance (c : Char) : Decidable (Separator c) :=
  inferInstanceAs (Decidable (c ∈ _))

instance (c : Char) : Decidable (Digit c) :=
  inferInstanceAs (Decidable (_ ∧ _))

instance (c : Char) : Decidable (Letter c) :=
  inferInstanceAs (Decidable (_ ∨ _))

instance (c : Char) : Decidable (NameStart c) :=
  inferInstanceAs (Decidable (_ ∨ _))

instance (c : Char) : Decidable (NamePart c) :=
  inferInstanceAs (Decidable (_ ∨ _))

instance (c : Char) : Decidable (Sign c) :=
  inferInstanceAs (Decidable (c ∈ _))

instance (c : Char) : Decidable (InAlphabet c) :=
  inferInstanceAs (Decidable (_ ∨ _))

/-- A token of this kind can start with the character. -/
def Kind.Starts (k : Kind) (c : Char) : Prop :=
  match k with
  | .number => Digit c
  | .identifier | .render => NameStart c
  | .eof => False
  | k => k.symbol.toList = [c]

/-- A token of this kind goes on over the character. -/
def Kind.Continues (k : Kind) (c : Char) : Prop :=
  match k with
  | .number => Digit c
  | .identifier | .render => NamePart c
  | _ => False

theorem isSeparator_iff {c : Char} : isSeparator c = true ↔ Separator c := by
  simp [isSeparator, Separator, or_assoc]

theorem isDigit_iff {c : Char} : c.isDigit = true ↔ Digit c := by
  simp [Char.isDigit, Digit, Char.le_def]

theorem isAlpha_iff {c : Char} : c.isAlpha = true ↔ Letter c := by
  have hupper : c.isUpper = true ↔ 'A' ≤ c ∧ c ≤ 'Z' := decide_eq_true_iff
  have hlower : c.isLower = true ↔ 'a' ≤ c ∧ c ≤ 'z' :=
    (Bool.and_eq_true_iff).trans (and_congr decide_eq_true_iff decide_eq_true_iff)
  exact (Bool.or_eq_true_iff.trans (or_congr hupper hlower)).trans or_comm

theorem isNameStart_iff {c : Char} : isNameStart c = true ↔ NameStart c := by
  simp [isNameStart, NameStart, isAlpha_iff]

theorem isNamePart_iff {c : Char} : isNamePart c = true ↔ NamePart c := by
  simp [isNamePart, NamePart, Char.isAlphanum, isAlpha_iff, isDigit_iff, or_assoc]

theorem starts_of_ofSign? {c : Char} {k : Kind} (h : Kind.ofSign? c = some k) : k.Starts c := by
  unfold Kind.ofSign? at h
  split at h
  all_goals cases h
  all_goals rfl

/-- The first character of a token tells a numeral, a word and a sign apart. -/
theorem Kind.Starts.cases {k : Kind} {c : Char} (h : k.Starts c) :
    (k = .number ∧ Digit c) ∨ ((k = .identifier ∨ k = .render) ∧ NameStart c) ∨
      Kind.ofSign? c = some k := by
  cases k with
  | number => exact .inl ⟨rfl, h⟩
  | identifier => exact .inr (.inl ⟨.inl rfl, h⟩)
  | render => exact .inr (.inl ⟨.inr rfl, h⟩)
  | eof => exact h.elim
  | _ =>
    refine .inr (.inr ?_)
    obtain rfl : _ = c := List.head_eq_of_cons_eq h
    rfl

/-! ### Code points -/

theorem Digit.toNat {c : Char} (h : Digit c) : 48 ≤ c.toNat ∧ c.toNat ≤ 57 :=
  h

theorem Letter.toNat {c : Char} (h : Letter c) :
    (97 ≤ c.toNat ∧ c.toNat ≤ 122) ∨ (65 ≤ c.toNat ∧ c.toNat ≤ 90) :=
  h

theorem NameStart.toNat {c : Char} (h : NameStart c) :
    (97 ≤ c.toNat ∧ c.toNat ≤ 122) ∨ (65 ≤ c.toNat ∧ c.toNat ≤ 90) ∨ c.toNat = 95 := by
  rcases h with h | rfl
  · have := h.toNat
    omega
  · exact .inr (.inr rfl)

/-- Signs are neither letters nor digits, nor the underscore. -/
theorem toNat_of_ofSign? {c : Char} {k : Kind} (h : Kind.ofSign? c = some k) :
    33 ≤ c.toNat ∧ c.toNat ≤ 47 ∨ c.toNat = 61 ∨ c.toNat = 94 := by
  unfold Kind.ofSign? at h
  split at h
  all_goals cases h
  all_goals decide

theorem Separator.toNat {c : Char} (h : Separator c) : c.toNat ≤ 32 := by
  simp only [Separator, List.mem_cons, List.not_mem_nil, or_false] at h
  rcases h with rfl | rfl | rfl | rfl | rfl | rfl
  all_goals decide

theorem not_digit_of_nameStart {c : Char} (h : NameStart c) : ¬ Digit c := by
  intro hd
  have := h.toNat
  have := hd.toNat
  omega

theorem ofSign?_eq_none_of_namePart {c : Char} (h : NamePart c) : Kind.ofSign? c = none := by
  cases hk : Kind.ofSign? c with
  | none => rfl
  | some k =>
    have hsign := toNat_of_ofSign? hk
    rcases h with h | h | rfl
    · have := h.toNat
      omega
    · have := h.toNat
      omega
    · cases hk

theorem NameStart.namePart {c : Char} (h : NameStart c) : NamePart c :=
  h.imp_right .inr

theorem namePart_of_continues {k : Kind} {c : Char} (h : k.Continues c) : NamePart c := by
  cases k with
  | number => exact .inr (.inl h)
  | identifier | render => exact h
  | _ => exact h.elim

theorem sign_of_ofSign? {c : Char} {k : Kind} (h : Kind.ofSign? c = some k) : Sign c := by
  unfold Kind.ofSign? at h
  split at h
  all_goals cases h
  all_goals decide

theorem exists_ofSign? {c : Char} (h : Sign c) : ∃ k, Kind.ofSign? c = some k := by
  simp only [Sign, List.mem_cons, List.not_mem_nil, or_false] at h
  rcases h with rfl | rfl | rfl | rfl | rfl | rfl | rfl | rfl | rfl | rfl
  all_goals exact ⟨_, rfl⟩

theorem inAlphabet_of_starts {k : Kind} {c : Char} (h : k.Starts c) : InAlphabet c := by
  rcases h.cases with ⟨-, hd⟩ | ⟨-, hn⟩ | hs
  · exact .inr (.inl (.inr (.inl hd)))
  · exact .inr (.inl hn.namePart)
  · exact .inr (.inr (sign_of_ofSign? hs))

theorem toNat_of_starts {k : Kind} {c : Char} (h : k.Starts c) : 33 ≤ c.toNat ∧ c.toNat ≤ 122 := by
  rcases h.cases with ⟨-, hd⟩ | ⟨-, hn⟩ | hs
  · have := hd.toNat
    omega
  · have := hn.toNat
    omega
  · have := toNat_of_ofSign? hs
    omega

theorem not_separator_of_starts {k : Kind} {c : Char} (h : k.Starts c) : ¬ Separator c := by
  intro hs
  have := hs.toNat
  have := toNat_of_starts h
  omega

theorem not_continues_of_ofSign? {c d : Char} {k : Kind} (h : Kind.ofSign? c = some k) :
    ¬ k.Continues d := by
  unfold Kind.ofSign? at h
  split at h
  all_goals cases h
  all_goals exact id

/-- The first character of a token tells how the token goes on. -/
theorem continues_iff {k : Kind} {c : Char} (h : k.Starts c) (d : Char) :
    k.Continues d ↔ (Digit c ∧ Digit d) ∨ (NameStart c ∧ NamePart d) := by
  rcases h.cases with ⟨rfl, hd⟩ | ⟨hk, hn⟩ | hs
  · have hn : ¬ NameStart c := fun hn => not_digit_of_nameStart hn hd
    simp [Kind.Continues, hd, hn]
  · have hd := not_digit_of_nameStart hn
    rcases hk with rfl | rfl
    all_goals simp [Kind.Continues, hd, hn]
  · have hpart : ¬ NamePart c := fun hp => by simp [ofSign?_eq_none_of_namePart hp] at hs
    have hd : ¬ Digit c := fun hd => hpart (.inr (.inl hd))
    have hn : ¬ NameStart c := fun hn => hpart hn.namePart
    simp [not_continues_of_ofSign? hs, hd, hn]

theorem Kind.Starts.eq {k k' : Kind} {c : Char} (h : k.Starts c) (h' : k'.Starts c)
    (hrender : k = .render ↔ k' = .render) : k = k' := by
  have hsign : ∀ {j : Kind}, NamePart c → Kind.ofSign? c ≠ some j := fun hp hs => by
    simp [ofSign?_eq_none_of_namePart hp] at hs
  rcases h.cases with ⟨rfl, hd⟩ | ⟨hk, hn⟩ | hs
  · rcases h'.cases with ⟨rfl, -⟩ | ⟨-, hn⟩ | hs
    · rfl
    · exact absurd hd (not_digit_of_nameStart hn)
    · exact absurd hs (hsign (.inr (.inl hd)))
  · rcases h'.cases with ⟨-, hd⟩ | ⟨hk', -⟩ | hs
    · exact absurd hd (not_digit_of_nameStart hn)
    · rcases hk with rfl | rfl
      all_goals rcases hk' with rfl | rfl
      all_goals simp_all
    · exact absurd hs (hsign hn.namePart)
  · rcases h'.cases with ⟨-, hd⟩ | ⟨-, hn⟩ | hs'
    · exact absurd hs (hsign (.inr (.inl hd)))
    · exact absurd hs (hsign hn.namePart)
    · exact Option.some.inj (hs.symm.trans hs')

/-! ### Bytes -/

/-- The number of bytes of a row of characters. -/
def byteLength (cs : List Char) : Nat :=
  (String.ofList cs).utf8ByteSize

@[simp] theorem byteLength_nil : byteLength [] = 0 :=
  rfl

@[simp] theorem byteLength_append (cs ds : List Char) :
    byteLength (cs ++ ds) = byteLength cs + byteLength ds := by
  simp [byteLength, String.ofList_append]

@[simp] theorem byteLength_cons (c : Char) (cs : List Char) :
    byteLength (c :: cs) = c.utf8Size + byteLength cs := by
  simp [byteLength, String.ofList_cons]

@[simp] theorem byteLength_toList (s : String) : byteLength s.toList = s.utf8ByteSize := by
  simp [byteLength]

theorem byteLength_eq_zero {cs : List Char} (h : byteLength cs = 0) : cs = [] := by
  cases cs with
  | nil => rfl
  | cons c cs =>
    have := c.utf8Size_pos
    simp only [byteLength_cons] at h
    omega

theorem utf8Size_of_toNat {c : Char} (h : c.toNat ≤ 127) : c.utf8Size = 1 :=
  Char.utf8Size_eq_one_iff.mpr (UInt32.le_iff_toNat_le.mpr h)

theorem byteLength_of_utf8Size {cs : List Char} (h : ∀ c ∈ cs, c.utf8Size = 1) :
    byteLength cs = cs.length := by
  induction cs with
  | nil => rfl
  | cons c cs ih =>
    have hc := h c List.mem_cons_self
    have hcs := ih fun d hd => h d (List.mem_cons_of_mem c hd)
    simp only [byteLength_cons, List.length_cons]
    omega

theorem utf8Size_of_namePart {c : Char} (h : NamePart c) : c.utf8Size = 1 := by
  apply utf8Size_of_toNat
  rcases h with h | h | rfl
  · have := h.toNat
    omega
  · have := h.toNat
    omega
  · decide

/-! ## Tokens at the front of a text -/

/-- The token is spelled as its kind asks; only `render` is a keyword, and only numerals have a
value. -/
structure Formed (t : Token) : Prop where
  spelled : ∃ c run, t.text.toList = c :: run ∧ t.kind.Starts c ∧ ∀ d ∈ run, t.kind.Continues d
  keyword : t.kind = .render ↔ t.text = "render"
  value : t.value? = if t.kind = .number then some (Nat.ofDigitChars 10 t.text.toList 0) else none

/-- The token stands at the front of a text that starts at a byte offset, `after` stands behind it,
and the token could not be longer. -/
structure Leads (offset : Nat) (cs : List Char) (t : Token) (after : List Char) : Prop where
  formed : t.Formed
  front : cs = t.text.toList ++ after
  span : t.span = ⟨offset, offset + t.text.utf8ByteSize⟩
  longest : ∀ c, after.head? = some c → ¬ t.kind.Continues c

/-- A run of characters up to one of another class is determined by the text. -/
theorem run_unique {P : Char → Prop} {run run' after after' : List Char}
    (h : run ++ after = run' ++ after') (hrun : ∀ c ∈ run, P c) (hrun' : ∀ c ∈ run', P c)
    (hafter : ∀ c, after.head? = some c → ¬ P c) (hafter' : ∀ c, after'.head? = some c → ¬ P c) :
    run = run' ∧ after = after' := by
  rcases List.append_eq_append_iff.mp h with ⟨more, rfl, rfl⟩ | ⟨more, rfl, rfl⟩
  · cases more with
    | nil => simp
    | cons c more => exact absurd (hrun' c (by simp)) (hafter c rfl)
  · cases more with
    | nil => simp
    | cons c more => exact absurd (hrun c (by simp)) (hafter' c rfl)

/-- A token is determined by its place and its text. -/
theorem Formed.eq {t u : Token} (ht : t.Formed) (hu : u.Formed) (hspan : t.span = u.span)
    (htext : t.text = u.text) : t = u := by
  obtain ⟨c, run, hrun, hstarts, -⟩ := ht.spelled
  obtain ⟨c', run', hrun', hstarts', -⟩ := hu.spelled
  rw [htext, hrun'] at hrun
  cases hrun
  have hkind : t.kind = u.kind := hstarts.eq hstarts' (by rw [ht.keyword, hu.keyword, htext])
  have hvalue : t.value? = u.value? := by
    rw [ht.value, hu.value, hkind, htext]
  cases t
  cases u
  simp_all

/-- At most one token can stand at the front of a text. -/
theorem Leads.unique {offset : Nat} {cs after after' : List Char} {t u : Token}
    (h : Leads offset cs t after) (h' : Leads offset cs u after') : t = u ∧ after = after' := by
  obtain ⟨c, run, hrun, hstarts, hcontinues⟩ := h.formed.spelled
  obtain ⟨c', run', hrun', hstarts', hcontinues'⟩ := h'.formed.spelled
  have heq := h.front.symm.trans h'.front
  rw [hrun, hrun', List.cons_append, List.cons_append, List.cons.injEq] at heq
  obtain ⟨rfl, heq⟩ := heq
  -- both tokens start with `c`, so both go on over the same characters
  have hsame : ∀ d, u.kind.Continues d ↔ t.kind.Continues d := fun d =>
    (continues_iff hstarts' d).trans (continues_iff hstarts d).symm
  obtain ⟨rfl, rfl⟩ := run_unique heq hcontinues (fun d hd => (hsame d).mp (hcontinues' d hd))
    h.longest (fun d hd hc => h'.longest d hd ((hsame d).mpr hc))
  have htext : t.text = u.text := String.toList_inj.mp (hrun.trans hrun'.symm)
  refine ⟨h.formed.eq h'.formed ?_ htext, rfl⟩
  rw [h.span, h'.span, htext]

/-! ## Cuts -/

/-- The token stands somewhere in a text that starts at a byte offset. -/
def Placed (offset : Nat) (cs : List Char) (t : Token) : Prop :=
  ∃ before tail after, cs = before ++ tail ∧ Leads (offset + byteLength before) tail t after

/-- The tokens stand in the text one after the other, and every character outside of them is a
separator. -/
structure Cut (offset : Nat) (cs : List Char) (words : List Token) : Prop where
  placed : ∀ t ∈ words, Placed offset cs t
  ordered : words.Pairwise fun t u => t.span.stop ≤ u.span.start
  gaps : ∀ before c after, cs = before ++ c :: after →
    (∀ t ∈ words, ¬ t.span.Covers (offset + byteLength before)) → Separator c

/-- The tokens cut the whole source, and behind them stands the one end mark. -/
def Tokenization (source : String) (tokens : List Token) : Prop :=
  ∃ words, tokens = words ++ [⟨.eof, ⟨source.utf8ByteSize, source.utf8ByteSize⟩, "", none⟩] ∧
    Cut 0 source.toList words

variable {offset : Nat} {cs after : List Char} {t : Token} {words : List Token}

theorem Leads.ne_nil (h : Leads offset cs t after) : t.text.toList ≠ [] := by
  obtain ⟨c, run, hrun, -⟩ := h.formed.spelled
  simp [hrun]

theorem Leads.start_lt_stop (h : Leads offset cs t after) :
    t.span.start = offset ∧ offset < t.span.stop := by
  have hpos : byteLength t.text.toList ≠ 0 := fun h0 => h.ne_nil (byteLength_eq_zero h0)
  rw [byteLength_toList] at hpos
  rw [h.span]
  exact ⟨rfl, by simp only; omega⟩

theorem Placed.offset_le (h : Placed offset cs t) :
    offset ≤ t.span.start ∧ t.span.start < t.span.stop := by
  obtain ⟨before, tail, after, -, hlead⟩ := h
  obtain ⟨hstart, hlt⟩ := hlead.start_lt_stop
  omega

theorem placed_append {before tail : List Char} (h : Placed (offset + byteLength before) tail t) :
    Placed offset (before ++ tail) t := by
  obtain ⟨before', tail', after', rfl, hlead⟩ := h
  refine ⟨before ++ before', tail', after', by simp, ?_⟩
  rw [byteLength_append, ← Nat.add_assoc]
  exact hlead

/-- A token that starts behind the characters `front` stands in what follows them. -/
theorem Placed.of_append {front tail : List Char} (h : Placed offset (front ++ tail) t)
    (hle : offset + byteLength front ≤ t.span.start) :
    Placed (offset + byteLength front) tail t := by
  obtain ⟨before, tail', after', heq, hlead⟩ := h
  have hstart := hlead.start_lt_stop.1
  rcases List.append_eq_append_iff.mp heq with ⟨more, rfl, rfl⟩ | ⟨more, rfl, rfl⟩
  · refine ⟨more, tail', after', rfl, ?_⟩
    rw [byteLength_append, ← Nat.add_assoc] at hlead
    exact hlead
  · rw [byteLength_append] at hle
    have hmore : more = [] := byteLength_eq_zero (by omega)
    subst hmore
    exact ⟨[], tail, after', rfl, by simpa using hlead⟩

section

variable {front rest : List Char}

/-- A character of a text in two parts stands in one of them. -/
theorem cons_of_append_eq {before : List Char} {c : Char}
    (h : front ++ rest = before ++ c :: after) :
    (∃ more, before = front ++ more ∧ rest = more ++ c :: after) ∨
      ∃ more, front = before ++ c :: more := by
  rcases List.append_eq_append_iff.mp h with ⟨more, hbefore, hrest⟩ | ⟨more, hfront, hafter⟩
  · exact .inl ⟨more, hbefore, hrest⟩
  · cases more with
    | nil => exact .inl ⟨[], by simpa using hfront.symm, by simpa using hafter.symm⟩
    | cons d more =>
      cases hafter
      exact .inr ⟨more, hfront⟩

/-- Behind some of its characters, and the tokens that stand in them, the rest of a text is cut by
the other tokens. -/
theorem Cut.behind (front : List Char) (skipped : List Token)
    (h : Cut offset (front ++ rest) (skipped ++ words))
    (hskipped : ∀ t ∈ skipped, t.span.stop ≤ offset + byteLength front)
    (hwords : ∀ t ∈ words, offset + byteLength front ≤ t.span.start) :
    Cut (offset + byteLength front) rest words where
  placed := fun t ht => (h.placed t (List.mem_append_right _ ht)).of_append (hwords t ht)
  ordered := (List.pairwise_append.mp h.ordered).2.1
  gaps := by
    rintro before c after rfl hcover
    apply h.gaps (front ++ before) c after (by simp)
    intro t ht hcovers
    rw [byteLength_append, ← Nat.add_assoc] at hcovers
    rcases List.mem_append.mp ht with ht | ht
    · have := hskipped t ht
      have := hcovers.2
      omega
    · exact hcover t ht hcovers

theorem Cut.append (skipped : List Token) (h : Cut (offset + byteLength front) rest words)
    (hplaced : ∀ t ∈ skipped, Placed offset (front ++ rest) t)
    (hordered : skipped.Pairwise fun t u => t.span.stop ≤ u.span.start)
    (hskipped : ∀ t ∈ skipped, t.span.stop ≤ offset + byteLength front)
    (hgaps : ∀ before c after, front = before ++ c :: after →
      (∀ t ∈ skipped, ¬ t.span.Covers (offset + byteLength before)) → Separator c) :
    Cut offset (front ++ rest) (skipped ++ words) where
  placed := by
    intro t ht
    rcases List.mem_append.mp ht with ht | ht
    · exact hplaced t ht
    · exact placed_append (h.placed t ht)
  ordered := by
    refine List.pairwise_append.mpr ⟨hordered, h.ordered, fun t ht u hu => ?_⟩
    exact Nat.le_trans (hskipped t ht) (h.placed u hu).offset_le.1
  gaps := by
    intro before c after heq hcover
    rcases cons_of_append_eq heq with ⟨more, rfl, hrest⟩ | ⟨more, hfront⟩
    · refine h.gaps more c after hrest fun t ht => ?_
      have := hcover t (List.mem_append_right _ ht)
      rwa [byteLength_append, ← Nat.add_assoc] at this
    · exact hgaps before c more hfront fun t ht => hcover t (List.mem_append_left _ ht)

end

/-- No token starts at a separator. -/
theorem Placed.behind_separator {c : Char} (h : Placed offset (c :: cs) t) (hc : Separator c) :
    offset + byteLength [c] ≤ t.span.start := by
  obtain ⟨before, tail, after, heq, hlead⟩ := h
  cases before with
  | nil =>
    obtain ⟨d, run, hrun, hstarts, -⟩ := hlead.formed.spelled
    have hfront := heq.trans hlead.front
    rw [hrun] at hfront
    cases hfront
    exact absurd hc (not_separator_of_starts hstarts)
  | cons d before =>
    cases heq
    have := hlead.start_lt_stop.1
    simp only [byteLength_cons, byteLength_nil] at this ⊢
    omega

theorem cut_blank_iff {c : Char} (hc : Separator c) :
    Cut offset (c :: cs) words ↔ Cut (offset + byteLength [c]) cs words := by
  constructor
  · intro h
    exact Cut.behind [c] [] h nofun
      fun t ht => (h.placed t ht).behind_separator hc
  · intro h
    refine Cut.append [] h nofun .nil nofun ?_
    intro before d after heq _
    cases before with
    | nil =>
      cases heq
      exact hc
    | cons e before => simp at heq

/-- Behind the token at its front a text is cut by the other tokens. -/
theorem Leads.cut_iff (h : Leads offset cs t after) :
    Cut offset cs (t :: words) ↔ Cut (offset + byteLength t.text.toList) after words := by
  have hstop : t.span.stop = offset + byteLength t.text.toList := by
    rw [h.span, byteLength_toList]
  have hfront := h.front
  subst hfront
  constructor
  · intro hcut
    refine Cut.behind t.text.toList [t] hcut (by simp [hstop]) fun u hu => ?_
    rw [← hstop]
    exact (List.pairwise_cons.mp hcut.ordered).1 u hu
  · intro hcut
    refine Cut.append [t] hcut ?_ (List.pairwise_singleton _ _) (by simp [hstop]) ?_
    · intro u hu
      rw [List.mem_singleton] at hu
      subst hu
      exact ⟨[], _, after, rfl, by simpa using h⟩
    · intro before c more heq hcover
      -- the token covers all its own characters
      refine absurd ⟨?_, ?_⟩ (hcover t (List.mem_singleton_self t))
      · rw [h.span]
        exact Nat.le_add_right _ _
      · rw [hstop, heq, byteLength_append, byteLength_cons]
        have := c.utf8Size_pos
        omega

/-- A cut starts with a token at the front, unless a separator stands there. -/
theorem Cut.exists_leads {c : Char} (h : Cut offset (c :: cs) words) (hc : ¬ Separator c) :
    ∃ t more after, words = t :: more ∧ Leads offset (c :: cs) t after := by
  have hcovered : ∃ t ∈ words, t.span.Covers offset := by
    refine Classical.byContradiction fun hnone => hc (h.gaps [] c cs rfl ?_)
    intro t ht hcovers
    exact hnone ⟨t, ht, hcovers⟩
  obtain ⟨t, ht, hcovers⟩ := hcovered
  obtain ⟨before, tail, after, heq, hlead⟩ := h.placed t ht
  have hbefore : before = [] := by
    apply byteLength_eq_zero
    have := hlead.start_lt_stop.1
    have := hcovers.1
    omega
  subst hbefore
  cases words with
  | nil => cases ht
  | cons u more =>
    rcases List.mem_cons.mp ht with rfl | ht
    · refine ⟨t, more, after, rfl, ?_⟩
      rw [heq]
      exact hlead
    · -- a token in front of the one at the front would have no room
      have hbehind := (List.pairwise_cons.mp h.ordered).1 t ht
      have := (h.placed u List.mem_cons_self).offset_le
      have := hcovers.1
      omega

theorem Cut.eq_nil (h : Cut offset [] words) : words = [] := by
  cases words with
  | nil => rfl
  | cons t more =>
    obtain ⟨before, tail, after, heq, hlead⟩ := h.placed t List.mem_cons_self
    have htail : tail = [] := (List.append_eq_nil_iff.mp heq.symm).2
    have hfront := htail.symm.trans hlead.front
    exact absurd (List.append_eq_nil_iff.mp hfront.symm).1 hlead.ne_nil

theorem cut_nil : Cut offset [] [] where
  placed := nofun
  ordered := .nil
  gaps := by simp

theorem Leads.length_lt (h : Leads offset cs t after) : after.length < cs.length := by
  have hpos := List.length_pos_iff.mpr h.ne_nil
  rw [h.front, List.length_append]
  omega

/-- A text has at most one cut. -/
theorem Cut.unique {words' : List Token} (h : Cut offset cs words) (h' : Cut offset cs words') :
    words = words' := by
  induction hn : cs.length using Nat.strongRecOn generalizing offset cs words words' with
  | ind n ih =>
    subst hn
    cases cs with
    | nil => rw [h.eq_nil, h'.eq_nil]
    | cons c cs =>
      by_cases hc : Separator c
      · exact ih cs.length (Nat.lt_succ_self _) ((cut_blank_iff hc).mp h) ((cut_blank_iff hc).mp h')
          rfl
      · obtain ⟨t, more, after, rfl, hlead⟩ := h.exists_leads hc
        obtain ⟨u, more', after', rfl, hlead'⟩ := h'.exists_leads hc
        obtain ⟨rfl, rfl⟩ := hlead.unique hlead'
        have hmore : more = more' :=
          ih after.length hlead.length_lt (hlead.cut_iff.mp h) (hlead.cut_iff.mp h') rfl
        rw [hmore]

/-! ## The reader -/

/-- One step of the reader, by the class of the character in sight. -/
theorem lexFrom_class (offset : Nat) (c : Char) (cs : List Char) :
    lexFrom offset (c :: cs) =
      if Separator c then lexFrom (offset + 1) cs
      else if Digit c then
        (lexFrom (offset + 1 + (cs.takeWhile Char.isDigit).length) (cs.dropWhile Char.isDigit)).map
          (numeral offset (c :: cs.takeWhile Char.isDigit) :: ·)
      else if NameStart c then
        (lexFrom (offset + 1 + (cs.takeWhile isNamePart).length) (cs.dropWhile isNamePart)).map
          (word offset (c :: cs.takeWhile isNamePart) :: ·)
      else
        match Kind.ofSign? c with
        | some kind => (lexFrom (offset + 1) cs).map (sign offset kind c :: ·)
        | none => .error (.unexpectedCharacter c offset) := by
  rw [lexFrom_cons]
  refine ite_congr (propext isSeparator_iff) (fun _ => rfl) fun _ => ?_
  refine ite_congr (propext isDigit_iff) (fun _ => rfl) fun _ => ?_
  exact ite_congr (propext isNameStart_iff) (fun _ => rfl) fun _ => rfl

theorem head?_dropWhile {p : Char → Bool} {c : Char} (h : (cs.dropWhile p).head? = some c) :
    p c = false := by
  have := List.head?_dropWhile_not p cs
  rwa [h] at this

/-! ### The tokens that the reader makes -/

/-- The text of a numeral or a sign is not the keyword. -/
theorem text_ne_render {c : Char} {k : Kind} (run : List Char) (hstarts : k.Starts c)
    (hname : ¬ NameStart c) : k = .render ↔ String.ofList (c :: run) = "render" := by
  constructor
  · rintro rfl
    exact absurd hstarts hname
  · intro h
    have hchars := congrArg String.toList h
    rw [String.toList_ofList] at hchars
    obtain rfl : c = 'r' := (List.cons.inj hchars).1
    exact absurd (by decide) hname

theorem formed_numeral (offset : Nat) {c : Char} {run : List Char} (hc : Digit c)
    (hrun : ∀ d ∈ run, Digit d) :
    (numeral offset (c :: run)).Formed where
  spelled := ⟨c, run, String.toList_ofList, hc, hrun⟩
  keyword := text_ne_render run hc fun hn => not_digit_of_nameStart hn hc
  value := by simp [numeral, Decimal.value]

theorem kind_word (offset : Nat) (cs : List Char) :
    (word offset cs).kind = if (word offset cs).text = "render" then .render else .identifier :=
  rfl

theorem formed_word (offset : Nat) {c : Char} {run : List Char} (hc : NameStart c)
    (hrun : ∀ d ∈ run, NamePart d) : (word offset (c :: run)).Formed := by
  have hkind := kind_word offset (c :: run)
  split at hkind
  · next hrender =>
    refine ⟨⟨c, run, String.toList_ofList, ?_, ?_⟩, ?_, ?_⟩
    · rwa [hkind]
    · rwa [hkind]
    · simp [hkind, hrender]
    · simp [hkind]
      rfl
  · next hrender =>
    refine ⟨⟨c, run, String.toList_ofList, ?_, ?_⟩, ?_, ?_⟩
    · rwa [hkind]
    · rwa [hkind]
    · simp [hkind, hrender]
    · simp [hkind]
      rfl

theorem formed_sign (offset : Nat) {c : Char} {k : Kind} (hc : Kind.ofSign? c = some k) :
    (sign offset k c).Formed := by
  have hstarts := starts_of_ofSign? hc
  have hpart : ¬ NamePart c := fun hp => by simp [ofSign?_eq_none_of_namePart hp] at hc
  have hnumber : k ≠ .number := by
    rintro rfl
    exact hpart (.inr (.inl hstarts))
  refine ⟨⟨c, [], String.toList_singleton c, hstarts, nofun⟩, ?_, ?_⟩
  · have hrender := text_ne_render [] hstarts fun hn => hpart hn.namePart
    rwa [← String.singleton_eq_ofList] at hrender
  · simp [sign, hnumber]

/-- The characters of a token take one byte each. -/
theorem Formed.utf8ByteSize (h : t.Formed) : t.text.utf8ByteSize = t.text.toList.length := by
  obtain ⟨c, run, hrun, hstarts, hcontinues⟩ := h.spelled
  rw [← byteLength_toList]
  apply byteLength_of_utf8Size
  rw [hrun]
  intro d hd
  rcases List.mem_cons.mp hd with rfl | hd
  · have := toNat_of_starts hstarts
    exact utf8Size_of_toNat (by omega)
  · exact utf8Size_of_namePart (namePart_of_continues (hcontinues d hd))

theorem Formed.leads (h : t.Formed) (hspan : t.span = ⟨offset, offset + t.text.toList.length⟩)
    (hafter : ∀ c, after.head? = some c → ¬ t.kind.Continues c) :
    Leads offset (t.text.toList ++ after) t after := by
  rw [← h.utf8ByteSize] at hspan
  exact ⟨h, rfl, hspan, hafter⟩

theorem mem_takeWhile {p : Char → Bool} {c : Char} (h : c ∈ cs.takeWhile p) : p c = true :=
  List.all_eq_true.mp List.all_takeWhile c h

/-- A token that takes all characters of its class stands at the front of the text. -/
theorem Formed.leads_run {p : Char → Bool} {c : Char} (h : t.Formed)
    (htext : t.text = String.ofList (c :: cs.takeWhile p))
    (hspan : t.span = ⟨offset, offset + t.text.toList.length⟩)
    (hp : ∀ d, t.kind.Continues d → p d = true) : Leads offset (c :: cs) t (cs.dropWhile p) := by
  have hchars : c :: cs = t.text.toList ++ cs.dropWhile p := by
    rw [htext, String.toList_ofList, List.cons_append, List.takeWhile_append_dropWhile]
  rw [hchars]
  refine h.leads hspan ?_
  intro d hd hcontinues
  have hstop := head?_dropWhile hd
  rw [hp d hcontinues] at hstop
  cases hstop

theorem leads_numeral (offset : Nat) (cs : List Char) {c : Char} (hc : Digit c) :
    Leads offset (c :: cs) (numeral offset (c :: cs.takeWhile Char.isDigit))
      (cs.dropWhile Char.isDigit) := by
  refine Formed.leads_run (formed_numeral offset hc ?_) rfl (by simp [numeral]) ?_
  · exact fun d hd => isDigit_iff.mp (mem_takeWhile hd)
  · exact fun d hd => isDigit_iff.mpr hd

theorem leads_word (offset : Nat) (cs : List Char) {c : Char} (hc : NameStart c) :
    Leads offset (c :: cs) (word offset (c :: cs.takeWhile isNamePart))
      (cs.dropWhile isNamePart) := by
  refine Formed.leads_run (formed_word offset hc ?_) rfl (by simp [word]) ?_
  · exact fun d hd => isNamePart_iff.mp (mem_takeWhile hd)
  · exact fun d hd => isNamePart_iff.mpr (namePart_of_continues hd)

theorem leads_sign (offset : Nat) (cs : List Char) {c : Char} {k : Kind}
    (hc : Kind.ofSign? c = some k) : Leads offset (c :: cs) (sign offset k c) cs := by
  have hchars : (sign offset k c).text.toList = [c] := String.toList_singleton c
  have h : Leads offset ((sign offset k c).text.toList ++ cs) (sign offset k c) cs := by
    refine (formed_sign offset hc).leads ?_ fun d _ => not_continues_of_ofSign? hc
    rw [hchars]
    rfl
  rwa [hchars] at h

/-- The reader takes the token at the front of a text and goes on behind it. -/
theorem lexFrom_leads (offset : Nat) (cs : List Char) {c : Char} (hc : InAlphabet c)
    (hblank : ¬ Separator c) :
    ∃ t after, Leads offset (c :: cs) t after ∧
      lexFrom offset (c :: cs) =
        (lexFrom (offset + byteLength t.text.toList) after).map (t :: ·) := by
  have hstop : ∀ {t after}, Leads offset (c :: cs) t after →
      t.span.stop = offset + byteLength t.text.toList := fun h => by
    rw [h.span, byteLength_toList]
  by_cases hd : Digit c
  · have hlead := leads_numeral offset cs hd
    refine ⟨_, _, hlead, ?_⟩
    simp only [← hstop hlead, lexFrom_class, hblank, hd, if_true, if_false]
    simp [numeral, Nat.add_comm, Nat.add_left_comm]
  · by_cases hn : NameStart c
    · have hlead := leads_word offset cs hn
      refine ⟨_, _, hlead, ?_⟩
      simp only [← hstop hlead, lexFrom_class, hblank, hd, hn, if_true, if_false]
      simp [word, Nat.add_comm, Nat.add_left_comm]
    · obtain ⟨k, hk⟩ : ∃ k, Kind.ofSign? c = some k := by
        rcases hc with hc | hc | hc
        · exact absurd hc hblank
        · rcases hc with hc | hc | hc
          · exact absurd (.inl hc) hn
          · exact absurd hc hd
          · exact absurd (.inr hc) hn
        · exact exists_ofSign? hc
      have hlead := leads_sign offset cs hk
      refine ⟨_, _, hlead, ?_⟩
      simp only [← hstop hlead, lexFrom_class, hblank, hd, hn, hk, if_false]
      rfl

theorem lexFrom_separator {c : Char} (hc : Separator c) :
    lexFrom offset (c :: cs) = lexFrom (offset + byteLength [c]) cs := by
  have hone : byteLength [c] = 1 := by
    have := hc.toNat
    simp [utf8Size_of_toNat (show c.toNat ≤ 127 by omega)]
  rw [lexFrom_class, if_pos hc, hone]

/-- Whatever token stands at the front of a text, the reader takes that one. -/
theorem Leads.lexFrom_eq (h : Leads offset cs t after) :
    lexFrom offset cs = (lexFrom (offset + byteLength t.text.toList) after).map (t :: ·) := by
  obtain ⟨c, run, hrun, hstarts, -⟩ := h.formed.spelled
  obtain ⟨rest, rfl⟩ : ∃ rest, cs = c :: rest := ⟨run ++ after, by rw [h.front, hrun]; rfl⟩
  obtain ⟨u, after', hlead, hstep⟩ := lexFrom_leads offset rest
    (inAlphabet_of_starts hstarts) (not_separator_of_starts hstarts)
  obtain ⟨rfl, rfl⟩ := h.unique hlead
  exact hstep

/-- The reader finds the cut of every text over the alphabet. -/
theorem lexFrom_cut (offset : Nat) {cs : List Char} (h : ∀ c ∈ cs, InAlphabet c) :
    ∃ words, lexFrom offset cs = .ok (words ++ [endAt (offset + byteLength cs)]) ∧
      Cut offset cs words := by
  induction hn : cs.length using Nat.strongRecOn generalizing offset cs with
  | ind n ih =>
    subst hn
    cases cs with
    | nil => exact ⟨[], lexFrom_nil offset, cut_nil⟩
    | cons c cs =>
      by_cases hc : Separator c
      · obtain ⟨words, hlex, hcut⟩ := ih cs.length (Nat.lt_succ_self _)
          (offset + byteLength [c]) (fun d hd => h d (List.mem_cons_of_mem c hd)) rfl
        refine ⟨words, ?_, (cut_blank_iff hc).mpr hcut⟩
        rw [lexFrom_separator hc, hlex, byteLength_cons c cs, byteLength_cons, byteLength_nil,
          Nat.add_zero, Nat.add_assoc]
      · obtain ⟨t, after, hlead, hstep⟩ := lexFrom_leads offset cs
          (h c List.mem_cons_self) hc
        have hafter : ∀ d ∈ after, InAlphabet d := by
          intro d hd
          apply h
          rw [hlead.front]
          exact List.mem_append_right _ hd
        obtain ⟨words, hlex, hcut⟩ := ih after.length hlead.length_lt
          (offset + byteLength t.text.toList) hafter rfl
        refine ⟨t :: words, ?_, hlead.cut_iff.mpr hcut⟩
        rw [hstep, hlex, hlead.front, byteLength_append, Nat.add_assoc]
        rfl

theorem inAlphabet_of_leads (h : Leads offset cs t after) : ∀ c ∈ t.text.toList, InAlphabet c := by
  obtain ⟨c, run, hrun, hstarts, hcontinues⟩ := h.formed.spelled
  rw [hrun]
  intro d hd
  rcases List.mem_cons.mp hd with rfl | hd
  · exact inAlphabet_of_starts hstarts
  · exact .inr (.inl (namePart_of_continues (hcontinues d hd)))

/-- The reader stops at the first character that is not in the alphabet. -/
theorem lexFrom_foreign {before : List Char} {c : Char} (hbefore : ∀ d ∈ before, InAlphabet d)
    (hc : ¬ InAlphabet c) :
    lexFrom offset (before ++ c :: after) =
      .error (.unexpectedCharacter c (offset + byteLength before)) := by
  induction hn : before.length using Nat.strongRecOn generalizing offset before with
  | ind n ih =>
    subst hn
    cases before with
    | nil =>
      have hblank : ¬ Separator c := fun h => hc (.inl h)
      have hd : ¬ Digit c := fun h => hc (.inr (.inl (.inr (.inl h))))
      have hn : ¬ NameStart c := fun h => hc (.inr (.inl h.namePart))
      have hsign : Kind.ofSign? c = none := by
        cases hk : Kind.ofSign? c with
        | none => rfl
        | some k => exact absurd (.inr (.inr (sign_of_ofSign? hk))) hc
      simp only [List.nil_append, lexFrom_class, hblank, hd, hn, hsign, if_false]
      rfl
    | cons d before =>
      have htail := fun e he => hbefore e (List.mem_cons_of_mem d he)
      by_cases hd : Separator d
      · rw [List.cons_append, lexFrom_separator hd,
          ih before.length (Nat.lt_succ_self _) htail rfl, byteLength_cons d before,
          byteLength_cons, byteLength_nil, Nat.add_zero, Nat.add_assoc]
      · obtain ⟨t, after', hlead, hstep⟩ := lexFrom_leads offset (before ++ c :: after)
          (hbefore d List.mem_cons_self) hd
        -- the first token ends in front of the foreign character
        have hfront : t.text.toList ++ after' = (d :: before) ++ c :: after := hlead.front.symm
        rcases cons_of_append_eq hfront with ⟨more, hmore, hafter⟩ | ⟨more, hmore⟩
        · have hlength : more.length < (d :: before).length := by
            have hpos := List.length_pos_iff.mpr hlead.ne_nil
            rw [hmore, List.length_append]
            omega
          have hmem : ∀ e ∈ more, InAlphabet e := by
            intro e he
            apply hbefore
            rw [hmore]
            exact List.mem_append_right _ he
          rw [List.cons_append, hstep, hafter, ih more.length hlength hmem rfl, hmore,
            byteLength_append, Nat.add_assoc]
          rfl
        · exact absurd (inAlphabet_of_leads hlead c (by simp [hmore])) hc

/-- A text is over the alphabet, or it has a first character that is not. -/
theorem inAlphabet_or_foreign (cs : List Char) :
    (∀ c ∈ cs, InAlphabet c) ∨
      ∃ before c after, cs = before ++ c :: after ∧ (∀ d ∈ before, InAlphabet d) ∧
        ¬ InAlphabet c := by
  induction cs with
  | nil => exact .inl nofun
  | cons c cs ih =>
    by_cases hc : InAlphabet c
    · rcases ih with h | ⟨before, d, after, rfl, hbefore, hd⟩
      · exact .inl (List.forall_mem_cons.mpr ⟨hc, h⟩)
      · exact .inr ⟨c :: before, d, after, rfl, List.forall_mem_cons.mpr ⟨hc, hbefore⟩, hd⟩
    · exact .inr ⟨[], c, cs, rfl, nofun, hc⟩

/-- What the reader gives for a source is a tokenization of it. -/
theorem tokenization_of_lex {source : String} {tokens : List Token}
    (h : lex source = .ok tokens) : Tokenization source tokens := by
  rcases inAlphabet_or_foreign source.toList with hall | ⟨before, c, after, heq, hbefore, hc⟩
  · obtain ⟨words, hlex, hcut⟩ := lexFrom_cut 0 hall
    rw [lex, hlex] at h
    cases h
    refine ⟨words, ?_, hcut⟩
    simp [endAt, Span.point]
  · rw [lex, heq, lexFrom_foreign hbefore hc] at h
    cases h

end Token

/-- **Tokens are cut by longest match.** A source over the alphabet has exactly one tokenization,
and this is what is read. Any other source is refused for its first character that is not in the
alphabet, at the byte offset of that character and under a label of its size. -/
theorem lex_longest_match (source : String) :
    ((∀ c ∈ source.toList, Token.InAlphabet c) →
      ∃ tokens, Token.lex source = .ok tokens ∧
        ∀ other, Token.Tokenization source other ↔ other = tokens) ∧
    ((∃ c ∈ source.toList, ¬ Token.InAlphabet c) →
      ∃ before c after, source.toList = before ++ c :: after ∧
        (∀ d ∈ before, Token.InAlphabet d) ∧ ¬ Token.InAlphabet c ∧
        ∃ e, Token.lex source = .error e ∧
          e = .unexpectedCharacter c (String.ofList before).utf8ByteSize ∧
          e.label.span = ⟨(String.ofList before).utf8ByteSize,
            (String.ofList before).utf8ByteSize + (String.singleton c).utf8ByteSize⟩) := by
  constructor
  · intro h
    obtain ⟨words, hlex, -⟩ := Token.lexFrom_cut 0 h
    have htokens := Token.tokenization_of_lex hlex
    refine ⟨_, hlex, fun other => ⟨?_, ?_⟩⟩
    · rintro ⟨words', rfl, hcut'⟩
      obtain ⟨words, hwords, hcut⟩ := htokens
      rw [hwords, hcut.unique hcut']
    · rintro rfl
      exact htokens
  · rintro ⟨x, hx, hforeign⟩
    rcases Token.inAlphabet_or_foreign source.toList with h | ⟨before, c, after, heq, hbefore, hc⟩
    · exact absurd (h x hx) hforeign
    · refine ⟨before, c, after, heq, hbefore, hc, _, ?_, rfl, ?_⟩
      · rw [Token.lex, heq, Token.lexFrom_foreign hbefore hc, Nat.zero_add]
        rfl
      · simp [LexError.label]

end Reckon
