import Reckon.Server

/-!
# Every text can be sent to the tool

A string that is written between quotes is read back as it was, whatever characters it holds, and so
are objects of strings. So there is a message for every expression.

* `Json.readsString_escape`: the characters of a string, up to its closing quote.
* `Json.readBack_string`, `Json.readBack_object`: values as they are written on one line.
* `Server.parse_callMessage`: the message that asks for a given expression.
-/

namespace Reckon

namespace Json

/-! ## Strings -/

theorem hexValue?_hexDigit (n : Nat) : hexValue? (hexDigit n) = some (n % 16) := by
  have hdigits : ∀ d < 16, hexValue? (Nat.digitChar d) = some d := by decide
  exact hdigits _ (Nat.mod_lt _ (by decide))

theorem le_byteLength_four (a b c d : Char) : 4 ≤ byteLength [a, b, c, d] := by
  have ha := a.utf8Size_pos
  have hb := b.utf8Size_pos
  have hc := c.utf8Size_pos
  have hd := d.utf8Size_pos
  simp only [byteLength, List.foldl]
  omega

theorem readHex_hexDigit {n : Nat} (hn : n < 256) (offset : Nat) (rest : List Char) :
    ∃ r, readHex offset ('0' :: '0' :: hexDigit (n / 16) :: hexDigit n :: rest) = .ok r ∧
      r.value = n ∧ r.rest = rest := by
  have hroom : ¬ byteLength (('0' :: '0' :: hexDigit (n / 16) :: hexDigit n :: rest).take 4) < 4 :=
    Nat.not_lt.mpr (le_byteLength_four _ _ _ _)
  have hzero : hexValue? '0' = some 0 := by decide
  have hvalue : ((0 * 16 + 0) * 16 + n / 16 % 16) * 16 + n % 16 = n := by omega
  rw [readHex, if_neg hroom]
  simp only [hzero, hexValue?_hexDigit]
  exact ⟨_, rfl, hvalue, rfl⟩

theorem isPlain_eq_true {c : Char} :
    isPlain c = true ↔ c ≠ '"' ∧ c ≠ '\\' ∧ 0x20 ≤ c.toNat := by
  simp [isPlain, and_assoc]

theorem escape_of_isPlain {c : Char} (h : isPlain c = true) : escape c = [c] := by
  unfold escape
  split
  case h_8 => exact if_neg (Nat.not_lt.mpr (isPlain_eq_true.mp h).2.2)
  all_goals exact absurd h (by decide)

/-- A character that does not stand for itself is written behind a backslash, and read back. -/
theorem exists_escape_of_not_isPlain {c : Char} (h : isPlain c = false) :
    ∃ code, escape c = '\\' :: code ∧ ∀ offset rest,
      ∃ r, readEscape offset (code ++ rest) = .ok r ∧ r.value = c ∧ r.rest = rest := by
  unfold escape
  split
  case h_8 hquote hbackslash _ _ _ _ _ =>
    have hcontrol : c.toNat < 0x20 := by
      apply Nat.not_le.mp
      intro hle
      rw [isPlain_eq_true.mpr ⟨hquote, hbackslash, hle⟩] at h
      cases h
    rw [if_pos hcontrol]
    refine ⟨_, rfl, fun offset rest => ?_⟩
    obtain ⟨r, hr, hvalue, hrest⟩ := readHex_hexDigit (Nat.lt_trans hcontrol (by decide))
      (offset + 1) rest
    have htrailing : isTrailingSurrogate r.value = false := by
      rw [hvalue]
      simp [isTrailingSurrogate]
      omega
    have hleading : isLeadingSurrogate r.value = false := by
      rw [hvalue]
      simp [isLeadingSurrogate]
      omega
    simp only [List.cons_append, List.nil_append, readEscape, escaped?, if_true, hr, bind,
      Except.bind, htrailing, hleading, Bool.false_eq_true, if_false]
    refine ⟨_, rfl, ?_, hrest⟩
    exact (congrArg Char.ofNat hvalue).trans (Char.ofNat_toNat c)
  all_goals exact ⟨_, rfl, fun _ _ => ⟨_, rfl, rfl, rfl⟩⟩

/-- Behind its opening quote the text holds a string, and then `rest`. -/
def ReadsString (cs s rest : List Char) : Prop :=
  ∀ offset, ∃ r, readString offset cs = .ok r ∧ r.value = s ∧ r.rest = rest

theorem readsString_of_quote {cs rest : List Char} (h : cs.dropWhile isPlain = '"' :: rest) :
    ReadsString cs (cs.takeWhile isPlain) rest := by
  intro offset
  rw [readString]
  split
  · next h' => rw [h] at h'; cases h'
  · next h' =>
    rw [h] at h'
    cases h'
    exact ⟨_, rfl, rfl, rfl⟩
  · next h' => rw [h] at h'; cases h'
  · next hquote _ => exact absurd h (hquote rest)

theorem readsString_of_escape {cs code more s rest : List Char} {c : Char}
    (h : cs.dropWhile isPlain = '\\' :: code)
    (hc : ∀ offset, ∃ r, readEscape offset code = .ok r ∧ r.value = c ∧ r.rest = more)
    (hmore : ReadsString more s rest) :
    ReadsString cs (cs.takeWhile isPlain ++ c :: s) rest := by
  intro offset
  rw [readString]
  split
  · next h' => rw [h] at h'; cases h'
  · next h' => rw [h] at h'; cases h'
  · next h' =>
    rw [h] at h'
    cases h'
    obtain ⟨e, he, rfl, rfl⟩ := hc (offset + byteLength (cs.takeWhile isPlain) + 1)
    obtain ⟨r, hr, rfl, rfl⟩ := hmore e.offset
    simp only [he, hr, bind, Except.bind]
    exact ⟨_, rfl, rfl, rfl⟩
  · next hescape => exact absurd h (hescape code)

theorem takeWhile_run {run cs : List Char} {c : Char} (hrun : ∀ d ∈ run, isPlain d = true)
    (hc : isPlain c = false) : (run ++ c :: cs).takeWhile isPlain = run := by
  rw [List.takeWhile_append_of_pos hrun, List.takeWhile_cons_of_neg (by simp [hc]), List.append_nil]

theorem dropWhile_run {run cs : List Char} {c : Char} (hrun : ∀ d ∈ run, isPlain d = true)
    (hc : isPlain c = false) : (run ++ c :: cs).dropWhile isPlain = c :: cs := by
  rw [List.dropWhile_append_of_pos hrun, List.dropWhile_cons_of_neg (by simp [hc])]

/-- An escaped string is read back up to its closing quote, behind characters that stand for
themselves. -/
theorem readsString_run {run : List Char} (hrun : ∀ c ∈ run, isPlain c = true)
    (s rest : List Char) :
    ReadsString (run ++ (s.flatMap escape ++ '"' :: rest)) (run ++ s) rest := by
  -- the reader takes a whole run at once, so a character that stands for itself joins the run
  induction s generalizing run with
  | nil =>
    have hquote : isPlain '"' = false := by decide
    have hread := readsString_of_quote (dropWhile_run hrun hquote : _ = '"' :: rest)
    rw [takeWhile_run hrun hquote] at hread
    rw [List.append_nil]
    exact hread
  | cons c s ih =>
    cases hc : isPlain c with
    | true =>
      have hrun' : ∀ d ∈ run ++ [c], isPlain d = true :=
        List.forall_mem_append.mpr ⟨hrun, List.forall_mem_singleton.mpr hc⟩
      have hread := ih hrun'
      rw [List.flatMap_cons, escape_of_isPlain hc]
      simpa using hread
    | false =>
      obtain ⟨code, hcode, hescape⟩ := exists_escape_of_not_isPlain hc
      have hbackslash : isPlain '\\' = false := by decide
      have hmore := ih (List.forall_mem_nil _)
      rw [List.flatMap_cons, hcode, List.append_assoc, List.cons_append]
      have hread := readsString_of_escape (dropWhile_run hrun hbackslash)
        (fun offset => hescape offset _) hmore
      rw [takeWhile_run hrun hbackslash] at hread
      exact hread

theorem readsString_escape (s rest : List Char) :
    ReadsString (s.flatMap escape ++ '"' :: rest) s rest :=
  readsString_run (List.forall_mem_nil _) s rest

/-! ## Values -/

/-- The text holds a value, and then `rest`. -/
def ReadsValue (room : Nat) (cs : List Char) (j : Json) (rest : List Char) : Prop :=
  ∀ offset, ∃ r, readValue room offset cs = .ok r ∧ r.value = j ∧ r.rest = rest

/-- The text holds members and the end of an object, and then `rest`. -/
def ReadsMembers (room : Nat) (first : Bool) (before : Entries Json) (cs : List Char)
    (members : Entries Json) (rest : List Char) : Prop :=
  ∀ offset, ∃ r, readMembers room first before offset cs = .ok r ∧ r.value = members ∧ r.rest = rest

theorem readsValue_string {cs s rest : List Char} (h : ReadsString cs s rest) (room : Nat) :
    ReadsValue room ('"' :: cs) (.string (String.ofList s)) rest := by
  intro offset
  obtain ⟨r, hr, rfl, rfl⟩ := h (blanksEnd offset ('"' :: cs) + 1)
  have hread : readValue room offset ('"' :: cs) =
      (readString (blanksEnd offset ('"' :: cs) + 1) cs).map
        (·.weaken (fun s => .string (String.ofList s))
          (Nat.le_of_lt (Front.length_lt_cons _ cs))) := by
    rw [readValue]
    rfl
  rw [hread, hr]
  exact ⟨_, rfl, rfl, rfl⟩

theorem readsValue_object {room : Nat} {cs rest : List Char} {members : Entries Json}
    (h : ReadsMembers room true [] cs members rest) :
    ReadsValue (room + 1) ('\x7b' :: cs) (.object members) rest := by
  intro offset
  obtain ⟨r, hr, rfl, rfl⟩ := h (blanksEnd offset ('\x7b' :: cs) + 1)
  have hread : readValue (room + 1) offset ('\x7b' :: cs) =
      (readMembers room true [] (blanksEnd offset ('\x7b' :: cs) + 1) cs).map
        (·.weaken .object (Nat.le_of_lt (Front.length_lt_cons _ cs))) := by
    rw [readValue]
    rfl
  rw [hread, hr]
  exact ⟨_, rfl, rfl, rfl⟩

/-- A member of an object, and what stands behind it: the end of the object, or a comma and further
members. -/
theorem readsMembers_cons {room : Nat} {first : Bool} {before members : Entries Json}
    {ds cs name colon body after rest : List Char} {j : Json}
    (hopen : dropBlanks ds = '"' :: cs) (hname : ReadsString cs name colon)
    (hcolon : dropBlanks colon = ':' :: body) (hvalue : ReadsValue room body j after)
    (hafter : dropBlanks after = '\x7d' :: rest ∧
        before.insert (String.ofList name) j = members ∨
      ∃ tail, dropBlanks after = ',' :: tail ∧
        ReadsMembers room false (before.insert (String.ofList name) j) tail members rest) :
    ReadsMembers room first before ds members rest := by
  intro offset
  obtain ⟨r, hr, rfl, rfl⟩ := hname (blanksEnd offset ds + 1)
  obtain ⟨v, hv, rfl, rfl⟩ := hvalue (blanksEnd r.offset r.rest + 1)
  rw [readMembers]
  split
  · next h => rw [hopen] at h; cases h
  · next h => rw [hopen] at h; cases h
  · next h =>
    rw [hopen] at h
    cases h
    simp only [hr, bind, Except.bind]
    split
    · next h => rw [hcolon] at h; cases h
    · next h =>
      rw [hcolon] at h
      cases h
      simp only [hv]
      rcases hafter with ⟨hend, hmembers⟩ | ⟨tail, hcomma, hmore⟩
      · split
        · next h => rw [hend] at h; cases h
        · next h =>
          rw [hend] at h
          cases h
          exact ⟨_, rfl, hmembers, rfl⟩
        · next h => rw [hend] at h; cases h
        · next h _ => exact absurd hend (h rest)
      · obtain ⟨w, hw, hmembers, hrest⟩ := hmore (blanksEnd v.offset v.rest + 1)
        split
        · next h => rw [hcomma] at h; cases h
        · next h => rw [hcomma] at h; cases h
        · next h =>
          rw [hcomma] at h
          cases h
          simp only [hw]
          exact ⟨_, rfl, hmembers, hrest⟩
        · next h => exact absurd hcomma (h tail)
    · next h => exact absurd hcolon (h body)
  · next h => exact absurd hopen (h cs)

/-! ## Texts -/

/-- What is written for a value is read as the value, whatever follows. -/
def ReadBack (room : Nat) (j : Json) : Prop :=
  ∀ rest, ReadsValue room (j.compact.toList ++ rest) j rest

theorem toList_quote (s : String) :
    (quote s).toList = '"' :: (s.toList.flatMap escape ++ ['"']) := by
  simp [quote]

theorem readBack_string (room : Nat) (s : String) : ReadBack room (.string s) := by
  intro rest
  have hread := readsValue_string (readsString_escape s.toList rest) room
  rw [String.ofList_toList] at hread
  rw [compact, toList_quote]
  simpa using hread

theorem readsMembers_compactMembers {room : Nat} {ms : List (String × Json)} (hne : ms ≠ [])
    (h : ∀ m ∈ ms, ReadBack room m.2) (first : Bool) (before : Entries Json) (rest : List Char) :
    ReadsMembers room first before ((compactMembers ms).toList ++ '\x7d' :: rest)
      (ms.foldl (fun entries m => entries.insert m.1 m.2) before) rest := by
  induction ms generalizing first before with
  | nil => exact absurd rfl hne
  | cons m ms ih =>
    obtain ⟨name, j⟩ := m
    have hj : ReadBack room j := h (name, j) List.mem_cons_self
    cases ms with
    | nil =>
      have hread : ReadsMembers room first before ('"' :: _) _ rest :=
        readsMembers_cons rfl (readsString_escape name.toList (':' :: _)) rfl (hj ('\x7d' :: rest))
          (.inl ⟨rfl, rfl⟩)
      simpa [compactMembers, toList_quote] using hread
    | cons m' ms =>
      have hmore := ih (by simp) (fun m hm => h m (List.mem_cons_of_mem _ hm)) false
        (before.insert name j)
      have hread : ReadsMembers room first before ('"' :: _) _ rest :=
        readsMembers_cons rfl (readsString_escape name.toList (':' :: _)) rfl (hj (',' :: _))
          (.inr ⟨_, rfl, by simpa using hmore⟩)
      simpa [compactMembers, toList_quote] using hread

theorem readBack_object {room : Nat} {ms : List (String × Json)} (hne : ms ≠ [])
    (h : ∀ m ∈ ms, ReadBack room m.2)
    (hms : ms.foldl (fun entries m => Entries.insert m.1 m.2 entries) [] = ms) :
    ReadBack (room + 1) (.object ms) := by
  intro rest
  have hread := readsValue_object (readsMembers_compactMembers hne h true [] rest)
  rw [hms] at hread
  simpa [compact] using hread

theorem parse_compact {j : Json} (h : ReadBack maxDepth j) : Json.parse j.compact = .ok j := by
  have hread : ReadsValue maxDepth j.compact.toList j [] := by
    simpa using h []
  obtain ⟨r, hr, hvalue, hrest⟩ := hread 0
  have htext : readText j.compact.toList = .ok j := by
    simp only [readText, hr, bind, Except.bind, hrest, hvalue]
    rfl
  rw [parse, htext]
  rfl

end Json

namespace Server

/-- The message that asks for the calculation of an expression. -/
def callMessage (id expression : String) : Json :=
  .object
    [("id", .string id), ("jsonrpc", .string "2.0"), ("method", .string "tools/call"),
      ("params", .object
        [("arguments", .object [("expression", .string expression)]),
          ("name", .string toolName)])]

theorem parse_callMessage (id expression : String) :
    Json.parse (callMessage id expression).compact = .ok (callMessage id expression) := by
  apply Json.parse_compact
  have harguments : Json.ReadBack 125 (.object [("expression", .string expression)]) :=
    Json.readBack_object (by simp) (by simp [Json.readBack_string]) rfl
  have hparams : Json.ReadBack 126 (.object
      [("arguments", .object [("expression", .string expression)]),
        ("name", .string toolName)]) :=
    Json.readBack_object (by simp) (by simp [Json.readBack_string, harguments]) rfl
  exact Json.readBack_object (by simp) (by simp [Json.readBack_string, hparams]) rfl

end Server

end Reckon
