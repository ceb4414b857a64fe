import Reckon.Proofs.Spacing
import Reckon.Proofs.Targets

/-!
# Labels point into the source

Every failure to read a source has one label, and the label is a range of that source: it does not
end before it starts, and both of its ends lie between characters. For most errors it is the place
of one token, for an invalid target it goes from one token to a later one. So all of this rests on
the tokens, which stand in the source one after the other, and on the reader, which points at tokens
of its list only. The end mark is pointed at where the source ends too early, and never for its
nesting.

* `Token.within_of_lex`, `Token.ordered_of_lex`: the places of tokens.
* `Stmt.read_fault`: what an error can be about.
* `Stmt.marks_of_ofTokens`: which tokens an error points at.
-/

namespace Reckon

/-! ## Ranges of a source -/

/-- The range belongs to the source. Each of its ends is the start of a character, or the end of
the source. -/
structure Span.Within (s : Span) (source : String) : Prop where
  ordered : s.start ≤ s.stop
  start_valid : String.Pos.Raw.IsValid source ⟨s.start⟩
  stop_valid : String.Pos.Raw.IsValid source ⟨s.stop⟩

namespace Span.Within

variable {s first last : Span} {source : String}

theorem start_add_length (h : s.Within source) : s.start + s.length = s.stop := by
  rw [Span.length_of_le h.ordered]
  exact Nat.add_sub_cancel' h.ordered

theorem stop_le (h : s.Within source) : s.stop ≤ source.utf8ByteSize :=
  h.stop_valid.le_rawEndPos

theorem cover (hfirst : first.Within source) (hlast : last.Within source)
    (h : first.start ≤ last.stop) : (Span.cover first last).Within source :=
  ⟨h, hfirst.start_valid, hlast.stop_valid⟩

end Span.Within

namespace Token

variable {source : String} {before after : List Char} {t : Token} {tokens : List Token}

theorem isValid_byteLength (h : source.toList = before ++ after) :
    String.Pos.Raw.IsValid source ⟨byteLength before⟩ := by
  refine String.Pos.Raw.isValid_iff_exists_append.mpr
    ⟨String.ofList before, String.ofList after, ?_, rfl⟩
  rw [← String.ofList_append, ← h, String.ofList_toList]

/-- A part of the source, by the characters in front of it and behind it. -/
theorem within_of_toList {part : List Char} (h : source.toList = before ++ part ++ after) :
    (⟨byteLength before, byteLength before + byteLength part⟩ : Span).Within source := by
  have hstop := isValid_byteLength h
  rw [byteLength_append] at hstop
  rw [List.append_assoc] at h
  exact ⟨Nat.le_add_right _ _, isValid_byteLength h, hstop⟩

theorem within_end (source : String) : (Span.point source.utf8ByteSize).Within source := by
  have h : source.toList = source.toList ++ [] ++ [] := by simp
  simpa [Span.point] using within_of_toList h

/-! ## The places of tokens -/

theorem Placed.within (h : Placed 0 source.toList t) : t.span.Within source := by
  obtain ⟨before, tail, after, htext, hlead⟩ := h
  rw [hlead.front, ← List.append_assoc] at htext
  have hspan := within_of_toList htext
  rwa [byteLength_toList, ← Nat.zero_add (byteLength before), ← hlead.span] at hspan

theorem within_of_lex (h : lex source = .ok tokens) (ht : t ∈ tokens) : t.span.Within source := by
  obtain ⟨words, rfl, hcut⟩ := tokenization_of_lex h
  rcases List.mem_append.mp ht with ht | ht
  · exact (hcut.placed t ht).within
  · rw [List.mem_singleton.mp ht]
    exact within_end source

theorem ordered_of_lex (h : lex source = .ok tokens) :
    tokens.Pairwise fun t u => t.span.stop ≤ u.span.start := by
  obtain ⟨words, rfl, hcut⟩ := tokenization_of_lex h
  refine List.pairwise_append.mpr ⟨hcut.ordered, List.pairwise_singleton _ _, ?_⟩
  intro t ht u hu
  rw [List.mem_singleton.mp hu]
  exact (hcut.placed t ht).within.stop_le

/-- The only end mark stands at the end of the source. -/
theorem span_of_kind_eof (h : lex source = .ok tokens) (ht : t ∈ tokens) (hk : t.kind = .eof) :
    t.span = .point source.utf8ByteSize := by
  obtain ⟨words, rfl, hcut⟩ := tokenization_of_lex h
  rcases List.mem_append.mp ht with ht | ht
  · obtain ⟨_, _, _, -, hlead⟩ := hcut.placed t ht
    exact absurd hk hlead.formed.kind_ne_eof
  · rw [List.mem_singleton.mp ht]
    rfl

theorem lex_foreign {c : Char} (h : source.toList = before ++ c :: after)
    (hbefore : ∀ d ∈ before, InAlphabet d) (hc : ¬ InAlphabet c) :
    lex source = .error (.unexpectedCharacter c (byteLength before)) := by
  rw [lex, h, lexFrom_foreign hbefore hc, Nat.zero_add]

/-- A refused source is refused for one of its characters. -/
theorem within_of_lex_error {e : LexError} (h : lex source = .error e) :
    e.label.span.Within source := by
  rcases inAlphabet_or_foreign source.toList with hall | ⟨before, c, after, heq, hbefore, hc⟩
  · obtain ⟨words, hlex, -⟩ := lexFrom_cut 0 hall
    rw [lex, hlex] at h
    cases h
  · rw [lex_foreign heq hbefore hc] at h
    cases h
    have hpart : source.toList = before ++ [c] ++ after := by simp [heq]
    simpa [LexError.label] using within_of_toList hpart

end Token

/-! ## The tokens that errors point at -/

theorem Cursor.current_mem {c : Cursor} {tokens : List Token} (h : c.rest <:+ tokens)
    (hne : c.rest ≠ []) : c.current ∈ tokens := by
  obtain ⟨p, t, ts, rfl⟩ := Cursor.exists_cons_of_suffix List.suffix_rfl hne
  exact h.subset List.mem_cons_self

namespace Parse

variable {room : Nat} {c : Cursor} {halt : Halt}

theorem assignment_fault (h : assignment room c = .error halt) :
    TokenFault halt ∨ ∃ span, halt.error = .invalidTarget span := by
  induction room generalizing c with
  | zero =>
    cases assignmentHalts h with
    | expression h₁ => exact .inl (expression_fault h₁)
    | target => exact .inr ⟨_, rfl⟩
    | tooDeep _ hk => exact .inl (.tooDeep (by simp [hk]))
  | succ room ih =>
    cases assignmentHalts h with
    | expression h₁ => exact .inl (expression_fault h₁)
    | target => exact .inr ⟨_, rfl⟩
    | step _ _ h₂ => exact ih h₂

theorem statement_fault (h : statement room c = .error halt) :
    TokenFault halt ∨ ∃ span, halt.error = .invalidTarget span := by
  cases statementHalts h with
  | expr _ h₁ => exact assignment_fault h₁
  | unopened => exact .inl (.unexpected _ _)
  | render _ _ h₁ => exact assignment_fault h₁
  | unclosed => exact .inl (.unexpected _ _)

end Parse

namespace Stmt

variable {source : String} {tokens : List Token} {halt : Halt} {err : ParseError}

/-- A token at the end of a statement that is no end mark is a fault as well. -/
theorem read_fault (h : Stmt.read tokens = .error halt) :
    Parse.TokenFault halt ∨ (∃ span, halt.error = .invalidTarget span) ∨
      halt.place.kind ≠ .eof ∧
        halt.error = .trailingTokens halt.place.kind halt.place.current.span := by
  rcases Stmt.read_eq_error h with hs | ⟨s, c, -, hk, rfl⟩
  · rcases Parse.statement_fault hs with hfault | htarget
    · exact .inl hfault
    · exact .inr (.inl htarget)
  · exact .inr (.inr ⟨hk, rfl⟩)

/-- The place in sight where a reading halts is one of the list. -/
theorem current_mem_of_read (hend : ∃ t ∈ tokens, t.kind = .eof)
    (h : Stmt.read tokens = .error halt) : halt.place.current ∈ tokens := by
  have hne := Stmt.rest_ne_nil_of_read_error hend h
  obtain ⟨pre, t, post, rfl, hplace, -⟩ := Stmt.read_halt h hne
  refine Cursor.current_mem ?_ hne
  rw [hplace]
  exact List.suffix_append _ _

end Stmt

/-- Where an error points at, among the tokens of a source. -/
def ParseError.Marks (source : String) (tokens : List Token) : ParseError → Prop
  | unexpectedToken _ found span | trailingTokens found span =>
    ∃ t ∈ tokens, t.kind ≠ .eof ∧ t.kind = found ∧ t.span = span
  | nestingTooDeep _ span => ∃ t ∈ tokens, t.kind ≠ .eof ∧ t.span = span
  | unexpectedEnd _ span => span = .point source.utf8ByteSize
  | invalidTarget span => ∃ front part back, tokens = front ++ part ++ back ∧ Extent part span

section

variable {source : String} {tokens : List Token} {err : ParseError}

theorem Parse.TokenFault.marks {halt : Halt} (h : Parse.TokenFault halt)
    (hlex : Token.lex source = .ok tokens) (hmem : halt.place.current ∈ tokens) :
    halt.error.Marks source tokens := by
  cases h with
  | unexpected c expected =>
    rw [Cursor.unexpected_place] at hmem
    unfold Cursor.unexpected
    split
    · next hk => exact Token.span_of_kind_eof hlex hmem hk
    · next hk => exact ⟨c.current, hmem, hk, rfl, rfl⟩
  | tooDeep hk => exact ⟨_, hmem, hk, rfl⟩

theorem Extent.within {part front back : List Token} {span : Span} (h : Extent part span)
    (hlex : Token.lex source = .ok (front ++ part ++ back)) : span.Within source := by
  obtain ⟨first, last, hfirst, hlast, rfl⟩ := h
  have hmem : ∀ t ∈ part, t ∈ front ++ part ++ back := fun t ht => by simp [ht]
  have hfirst' := Token.within_of_lex hlex (hmem first (List.mem_of_mem_head? hfirst))
  have hlast' := Token.within_of_lex hlex (hmem last (List.mem_of_mem_getLast? hlast))
  refine hfirst'.cover hlast' ?_
  -- the last token is the first one, or stands behind it
  obtain ⟨more, rfl⟩ := List.head?_eq_some_iff.mp hfirst
  rcases List.mem_cons.mp (List.mem_of_mem_getLast? hlast) with rfl | hmore
  · exact hlast'.ordered
  · have hordered := Token.ordered_of_lex hlex
    rw [List.append_assoc, List.pairwise_append] at hordered
    have hbehind := (List.pairwise_cons.mp hordered.2.1).1 last (List.mem_append_left _ hmore)
    have := hfirst'.ordered
    have := hlast'.ordered
    omega

theorem Stmt.marks_of_ofTokens (hlex : Token.lex source = .ok tokens)
    (h : Stmt.ofTokens tokens = .error err) : err.Marks source tokens := by
  have hend : ∃ t ∈ tokens, t.kind = .eof := by
    obtain ⟨words, rfl, -⟩ := Token.tokenization_of_lex hlex
    exact ⟨_, List.mem_append_right _ List.mem_cons_self, rfl⟩
  obtain ⟨place, hread⟩ := Stmt.ofTokens_eq_error.mp h
  have hmem := Stmt.current_mem_of_read hend hread
  rcases Stmt.read_fault hread with hfault | ⟨span, herror⟩ | ⟨hk, herror⟩
  · exact hfault.marks hlex hmem
  · subst herror
    obtain ⟨front, us, target, rfl, -, ⟨targets, sign, rest, _, _, _, rfl, -⟩, hspan⟩ :=
      (Stmt.ofTokens_invalidTarget_iff hend).mp h
    exact ⟨front ++ targets.flatMap Target.written, target, sign :: rest, by simp, hspan⟩
  · obtain rfl : err = .trailingTokens place.kind place.current.span := herror
    exact ⟨_, hmem, hk, rfl, rfl⟩

theorem ParseError.Marks.within (h : err.Marks source tokens)
    (hlex : Token.lex source = .ok tokens) : err.span.Within source := by
  cases err with
  | unexpectedToken _ _ span =>
    obtain ⟨t, ht, -, -, rfl⟩ := h
    exact Token.within_of_lex hlex ht
  | trailingTokens _ span =>
    obtain ⟨t, ht, -, -, rfl⟩ := h
    exact Token.within_of_lex hlex ht
  | nestingTooDeep _ span =>
    obtain ⟨t, ht, -, rfl⟩ := h
    exact Token.within_of_lex hlex ht
  | unexpectedEnd _ span =>
    cases h
    exact Token.within_end source
  | invalidTarget span =>
    obtain ⟨front, part, back, rfl, hspan⟩ := h
    exact hspan.within hlex

end

/-- **Labels point into the source.** A source that cannot be read fails for a character or for its
tokens. Either way the failure has one label, whose ends lie between characters of the source, the
second not before the first. In the second case the error marks what it is about: one token other
than the end mark, of the kind that the error names, the end of the source if that came too soon, or
a row of tokens. -/
theorem parse_label_within (source : String) (failure : Failure)
    (h : Stmt.parse source = .error failure) :
    ∃ label, failure.label? = some label ∧ label.span.Within source ∧
      label.span.start + label.span.length = label.span.stop ∧
      label.span.stop ≤ source.utf8ByteSize ∧
      ((∃ e, failure = .lex e ∧ Token.lex source = .error e) ∨
        ∃ err tokens, failure = .parse err ∧ Token.lex source = .ok tokens ∧
          err.Marks source tokens) := by
  cases hlex : Token.lex source with
  | error e =>
    rw [Stmt.parse_of_lex_error hlex] at h
    cases h
    have hwithin := Token.within_of_lex_error hlex
    exact ⟨e.label, rfl, hwithin, hwithin.start_add_length, hwithin.stop_le, .inl ⟨e, rfl, rfl⟩⟩
  | ok tokens =>
    rw [Stmt.parse_of_lex hlex] at h
    cases hread : Stmt.ofTokens tokens with
    | ok s =>
      rw [hread] at h
      cases h
    | error err =>
      rw [hread] at h
      cases h
      have hmarks := Stmt.marks_of_ofTokens hlex hread
      have hwithin := hmarks.within hlex
      exact ⟨err.label, rfl, hwithin, hwithin.start_add_length, hwithin.stop_le,
        .inr ⟨err, tokens, rfl, rfl, hmarks⟩⟩

/-- A character of two bytes, and a target of three tokens. -/
theorem parse_label_within_target :
    Stmt.parse "2é" = .error (.lex (.unexpectedCharacter 'é' 1)) ∧ (⟨1, 3⟩ : Span).Within "2é" ∧
      Stmt.parse "render(x=1+y=2)" = .error (.parse (.invalidTarget ⟨9, 12⟩)) ∧
      (⟨9, 12⟩ : Span).Within "render(x=1+y=2)" := by
  have hforeign : Stmt.parse "2é" = .error (.lex (.unexpectedCharacter 'é' 1)) :=
    Stmt.parse_of_lex_error (Token.lex_foreign (show "2é".toList = ['2'] ++ 'é' :: [] by decide)
      (List.forall_mem_singleton.mpr (by decide)) (by decide))
  have hlex : Token.lex "render(x=1+y=2)" = .ok assignedSum :=
    toOption_eq_some.mp (by decide +kernel)
  have hsum : Stmt.parse "render(x=1+y=2)" = .error (.parse (.invalidTarget ⟨9, 12⟩)) :=
    (Stmt.parse_eq_parse_error hlex).mpr (Stmt.ofTokens_eq_error.mpr ⟨_, read_assignedSum⟩)
  obtain ⟨_, ⟨⟩, hchar, -⟩ := parse_label_within _ _ hforeign
  obtain ⟨_, ⟨⟩, htarget, -⟩ := parse_label_within _ _ hsum
  exact ⟨hforeign, hchar, hsum, htarget⟩

end Reckon
