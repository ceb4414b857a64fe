import Reckon.Proofs.CorrectPrefix
import Reckon.Proofs.Positions
import Reckon.Proofs.Printing
import Reckon.Proofs.Runs

/-!
# Blanks between tokens carry no meaning

Two texts with blanks between them have the tokens of the first and then those of the second, which
stand as much further behind as the first text and the blanks are long. How many blanks there are,
and which, shows in positions alone, and the grammar does not look at these.

* `lexFrom_shift`: the tokens of a text that starts at a later offset.
* `exists_lexes`: the tokens of a text stay the same in front of everything that does not go on with
  its last word.
* `lex_append_blanks`: the tokens of two texts, and the statement they spell together.
-/

namespace Reckon

/-! ## Later offsets -/

/-- The token, so many bytes further behind. -/
def Token.shift (n : Nat) : Token → Token :=
  Token.move (· + n)

def LexError.shift (n : Nat) : LexError → LexError
  | unexpectedCharacter c position => unexpectedCharacter c (position + n)

def Label.shift (n : Nat) (l : Label) : Label :=
  ⟨l.span.move (· + n), l.remark⟩

theorem LexError.label_shift (n : Nat) (e : LexError) : (e.shift n).label = e.label.shift n := by
  obtain ⟨c, position⟩ := e
  simp only [shift, label, Label.shift, Span.move]
  rw [Nat.add_right_comm]

namespace Token

/-- What the reader gives, so many bytes further behind. -/
def shifted (n : Nat) : Except LexError (List Token) → Except LexError (List Token)
  | .ok ts => .ok (ts.map (shift n))
  | .error e => .error (e.shift n)

theorem shifted_cons (n : Nat) (t : Token) (x : Except LexError (List Token)) :
    shifted n (x.map (t :: ·)) = (shifted n x).map (t.shift n :: ·) := by
  cases x <;> rfl

theorem numeral_shift (n offset : Nat) (ds : List Char) :
    numeral (offset + n) ds = (numeral offset ds).shift n := by
  simp [numeral, shift, move, Span.move, Nat.add_right_comm]

theorem word_shift (n offset : Nat) (cs : List Char) :
    word (offset + n) cs = (word offset cs).shift n := by
  simp [word, shift, move, Span.move, Nat.add_right_comm]

theorem sign_shift (n offset : Nat) (k : Kind) (c : Char) :
    sign (offset + n) k c = (sign offset k c).shift n := by
  simp [sign, shift, move, Span.move, Nat.add_right_comm]

/-- A text that starts at a later offset has its tokens, or its foreign character, as much further
behind. -/
theorem lexFrom_shift (n offset : Nat) (cs : List Char) :
    lexFrom (offset + n) cs = shifted n (lexFrom offset cs) := by
  fun_induction lexFrom offset cs with
  | case1 offset =>
    rw [lexFrom_nil]
    rfl
  | case2 offset c rest hblank ih =>
    rw [lexFrom_cons, if_pos hblank, Nat.add_right_comm, ih]
  | case3 offset c rest hblank hdigit ds ih =>
    rw [lexFrom_cons, if_neg hblank, if_pos hdigit, numeral_shift, shifted_cons, ← ih,
      Nat.add_right_comm offset n, Nat.add_right_comm (offset + 1) n]
  | case4 offset c rest hblank hdigit hname part ih =>
    rw [lexFrom_cons, if_neg hblank, if_neg hdigit, if_pos hname, word_shift, shifted_cons, ← ih,
      Nat.add_right_comm offset n, Nat.add_right_comm (offset + 1) n]
  | case5 offset c rest hblank hdigit hname kind hkind ih =>
    rw [lexFrom_cons, if_neg hblank, if_neg hdigit, if_neg hname, hkind, shifted_cons, ← ih,
      ← sign_shift, Nat.add_right_comm offset n]
  | case6 offset c rest hblank hdigit hname hkind =>
    rw [lexFrom_cons, if_neg hblank, if_neg hdigit, if_neg hname, hkind]
    rfl

/-! ## Parts of a text -/

/-- A token at the front of a text stays there in front of everything that goes on with no word. -/
theorem Leads.append {offset : Nat} {cs after rest : List Char} {t : Token}
    (h : Leads offset cs t after) (hrest : ∀ c, rest.head? = some c → ¬ NamePart c) :
    Leads offset (cs ++ rest) t (after ++ rest) where
  formed := h.formed
  front := by rw [h.front, List.append_assoc]
  span := h.span
  longest := by
    cases after with
    | nil => exact fun c hc hcontinues => hrest c hc (namePart_of_continues hcontinues)
    | cons d after => exact h.longest

/-- A text over the alphabet has tokens that do not depend on what follows. -/
theorem exists_lexes (offset : Nat) {cs : List Char} (h : ∀ c ∈ cs, InAlphabet c) :
    ∃ words, Lexes offset cs words ∧ ∀ t ∈ words, t.Formed := by
  induction hn : cs.length using Nat.strongRecOn generalizing offset cs with
  | ind n ih =>
    subst hn
    cases cs with
    | nil => exact ⟨[], lexes_nil, nofun⟩
    | cons c cs =>
      by_cases hc : Separator c
      · obtain ⟨words, hwords, hformed⟩ := ih cs.length (Nat.lt_succ_self _)
          (offset + byteLength [c]) (fun d hd => h d (List.mem_cons_of_mem c hd)) rfl
        exact ⟨words, hwords.separator hc, hformed⟩
      · obtain ⟨t, after, hlead, -⟩ := lexFrom_leads offset cs (h c List.mem_cons_self) hc
        have hafter : ∀ d ∈ after, InAlphabet d := by
          intro d hd
          apply h
          rw [hlead.front]
          exact List.mem_append_right _ hd
        obtain ⟨words, hwords, hformed⟩ := ih after.length hlead.length_lt
          (offset + byteLength t.text.toList) hafter rfl
        refine ⟨t :: words, fun rest hrest => ?_, List.forall_mem_cons.mpr ⟨hlead.formed, hformed⟩⟩
        rw [(hlead.append hrest).lexFrom_eq, hwords rest hrest, hlead.front, byteLength_append,
          Nat.add_assoc]
        exact @map_append_map [t] words _

theorem lexFrom_separators {gap : List Char} (h : ∀ c ∈ gap, Separator c) (offset : Nat)
    (cs : List Char) : lexFrom offset (gap ++ cs) = lexFrom (offset + byteLength gap) cs := by
  induction gap generalizing offset with
  | nil => rfl
  | cons c gap ih =>
    rw [List.cons_append, lexFrom_separator (h c List.mem_cons_self),
      ih (fun d hd => h d (List.mem_cons_of_mem c hd)), Nat.add_assoc, ← byteLength_append]
    rfl

theorem Formed.kind_ne_eof {t : Token} (h : t.Formed) : t.kind ≠ .eof := by
  obtain ⟨c, run, -, hstarts, -⟩ := h.spelled
  intro hk
  rw [hk] at hstarts
  exact hstarts

theorem inAlphabet_of_lex {source : String} {tokens : List Token} (h : lex source = .ok tokens) :
    ∀ c ∈ source.toList, InAlphabet c := by
  rcases inAlphabet_or_foreign source.toList with hall | ⟨before, c, after, heq, hbefore, hc⟩
  · exact hall
  · rw [lex, heq, lexFrom_foreign hbefore hc] at h
    cases h

/-- The tokens of a source in front of its end mark, whatever follows the source. -/
theorem exists_lexes_of_lex {source : String} {tokens : List Token} (h : lex source = .ok tokens) :
    ∃ words, Lexes 0 source.toList words ∧ (∀ t ∈ words, t.kind ≠ .eof) ∧
      tokens = words ++ [endAt source.utf8ByteSize] := by
  obtain ⟨words, hwords, hformed⟩ := exists_lexes 0 (inAlphabet_of_lex h)
  rw [lex, hwords.lexFrom_eq, byteLength_toList, Nat.zero_add] at h
  cases h
  exact ⟨words, hwords, fun t ht => (hformed t ht).kind_ne_eof, rfl⟩

theorem filter_words {words : List Token} (h : ∀ t ∈ words, t.kind ≠ .eof) (position : Nat) :
    (words ++ [endAt position]).filter (fun t => t.kind ≠ .eof) = words := by
  have hwords : words.filter (fun t => t.kind ≠ .eof) = words :=
    List.filter_eq_self.mpr fun t ht => decide_eq_true (h t ht)
  rw [List.filter_append, hwords]
  exact List.append_nil words

/-! ## Texts with blanks between them -/

section

variable {a b w : String}

theorem lex_append_error {e : LexError} (h : lex a = .error e) (w b : String) :
    lex (a ++ w ++ b) = .error e := by
  rcases inAlphabet_or_foreign a.toList with hall | ⟨before, c, after, heq, hbefore, hc⟩
  · obtain ⟨words, hwords, -⟩ := exists_lexes 0 hall
    rw [lex, hwords.lexFrom_eq] at h
    cases h
  · rw [lex, heq, lexFrom_foreign hbefore hc] at h
    cases h
    rw [lex, String.toList_append, String.toList_append, heq, List.append_assoc,
      List.append_assoc, List.cons_append, lexFrom_foreign hbefore hc]

variable (hne : w ≠ "") (hw : ∀ c ∈ w.toList, Separator c)

include hne hw

theorem lex_append_ok {ts : List Token} (h : lex a = .ok ts) (b : String) :
    lex (a ++ w ++ b) =
      (shifted (a ++ w).utf8ByteSize (lex b)).map (ts.filter (fun t => t.kind ≠ .eof) ++ ·) := by
  obtain ⟨words, hwords, hkind, rfl⟩ := exists_lexes_of_lex h
  have hgap : ∀ c, (w.toList ++ b.toList).head? = some c → ¬ NamePart c := by
    cases hcs : w.toList with
    | nil => exact absurd (String.toList_inj.mp hcs) hne
    | cons d cs =>
      intro c hc
      obtain rfl : d = c := Option.some.inj hc
      exact (hw d (by simp [hcs])).not_namePart
  rw [filter_words hkind, lex, lex, ← lexFrom_shift, String.toList_append, String.toList_append,
    List.append_assoc, hwords _ hgap, lexFrom_separators hw, byteLength_toList, byteLength_toList,
    String.utf8ByteSize_append, Nat.add_assoc]

end

theorem map_unplaced_shift (n : Nat) (ts : List Token) :
    (ts.map (shift n)).map unplaced = ts.map unplaced := by
  rw [List.map_map]
  rfl

end Token

theorem Stmt.parse_of_lex_error {source : String} {e : LexError}
    (h : Token.lex source = .error e) : Stmt.parse source = .error (.lex e) := by
  simp [Stmt.parse, h]

/-- Two texts have a foreign character, whatever blanks stand between them, or other blanks show in
no more than the place of an error. -/
theorem Stmt.parse_append_blanks {w w' : String} (hne : w ≠ "")
    (hw : ∀ c ∈ w.toList, Token.Separator c) (hne' : w' ≠ "")
    (hw' : ∀ c ∈ w'.toList, Token.Separator c) (a b : String) :
    (∃ e e', Stmt.parse (a ++ w ++ b) = .error (.lex e) ∧
      Stmt.parse (a ++ w' ++ b) = .error (.lex e')) ∨
    (Stmt.parse (a ++ w ++ b)).mapError Failure.unplaced =
      (Stmt.parse (a ++ w' ++ b)).mapError Failure.unplaced := by
  cases ha : Token.lex a with
  | error e =>
    exact .inl ⟨e, e, Stmt.parse_of_lex_error (Token.lex_append_error ha w b),
      Stmt.parse_of_lex_error (Token.lex_append_error ha w' b)⟩
  | ok ts =>
    have hlex := Token.lex_append_ok hne hw ha b
    have hlex' := Token.lex_append_ok hne' hw' ha b
    cases hb : Token.lex b with
    | error e =>
      rw [hb] at hlex hlex'
      exact .inl ⟨_, _, Stmt.parse_of_lex_error hlex, Stmt.parse_of_lex_error hlex'⟩
    | ok us =>
      rw [hb] at hlex hlex'
      refine .inr (Stmt.parse_unplaced hlex hlex' ?_)
      rw [List.map_append, List.map_append, Token.map_unplaced_shift, Token.map_unplaced_shift]

/-- **Blanks between tokens carry no meaning.** Two texts with blanks between them have the tokens
of the first without its end mark, and behind them those of the second, which have moved by the
length of what is in front. A foreign character of the first text is reported as it is, and one of
the second at its moved place. Other blanks in between change neither the statement that is read
nor, if the grammar refuses the tokens, anything but the place of the error. -/
theorem lex_append_blanks (a b w : String) (hne : w ≠ "")
    (hw : ∀ c ∈ w.toList, Token.Separator c) :
    (∀ ts us, Token.lex a = .ok ts → Token.lex b = .ok us →
      Token.lex (a ++ w ++ b) = .ok (ts.filter (fun t => t.kind ≠ .eof) ++
        us.map (Token.shift (a ++ w).utf8ByteSize))) ∧
    (∀ e, Token.lex a = .error e → Token.lex (a ++ w ++ b) = .error e) ∧
    (∀ ts e, Token.lex a = .ok ts → Token.lex b = .error e →
      ∃ e', Token.lex (a ++ w ++ b) = .error e' ∧ e' = e.shift (a ++ w).utf8ByteSize ∧
        e'.label = e.label.shift (a ++ w).utf8ByteSize) ∧
    ∀ w' : String, w' ≠ "" → (∀ c ∈ w'.toList, Token.Separator c) →
      (∀ s, Stmt.parse (a ++ w ++ b) = .ok s ↔ Stmt.parse (a ++ w' ++ b) = .ok s) ∧
      ∀ err, Stmt.parse (a ++ w ++ b) = .error (.parse err) →
        ∃ err', Stmt.parse (a ++ w' ++ b) = .error (.parse err') ∧
          err'.unplaced = err.unplaced ∧ err'.code = err.code ∧ err'.message = err.message := by
  refine ⟨?_, ?_, ?_, ?_⟩
  · intro ts us ha hb
    rw [Token.lex_append_ok hne hw ha, hb]
    rfl
  · intro e ha
    exact Token.lex_append_error ha w b
  · intro ts e ha hb
    refine ⟨_, ?_, rfl, e.label_shift _⟩
    rw [Token.lex_append_ok hne hw ha, hb]
    rfl
  · intro w' hne' hw'
    rcases Stmt.parse_append_blanks hne hw hne' hw' a b with ⟨e, e', h, h'⟩ | hsame
    · simp [h, h']
    · rcases alike_of_mapError_eq hsame with ⟨s, h, h'⟩ | ⟨failure, failure', h, h', halike⟩
      · simp [h, h']
      · refine ⟨by simp [h, h'], fun err herr => ?_⟩
        rw [h] at herr
        cases herr
        cases failure' with
        | lex | eval => cases halike
        | parse err' =>
          have hunplaced : err.unplaced = err'.unplaced := Failure.parse.inj halike
          refine ⟨err', h', hunplaced.symm, ?_, ?_⟩
          · simpa [ParseError.unplaced] using congrArg ParseError.code hunplaced.symm
          · simpa [ParseError.unplaced] using congrArg ParseError.message hunplaced.symm

/-- Without the blank `x` and `1` would be one name. -/
theorem lex_append_blanks_tab :
    "\t" ≠ "" ∧ (∀ c ∈ "\t".toList, Token.Separator c) ∧
    Token.lex ("y=x" ++ "\t" ++ "1") = .ok [Token.word 0 ['y'], Token.sign 1 .assign '=',
      Token.word 2 ['x'], Token.numeral 4 ['1'], Token.endAt 5] ∧
    Stmt.parse ("y=x" ++ "\t" ++ "1") = .error (.parse (.trailingTokens .number ⟨4, 5⟩)) ∧
    ∃ err, Stmt.parse ("y=x" ++ " \n" ++ "1") = .error (.parse err) ∧
      err.message = "Unexpected <number> after end of statement" := by
  have hne : "\t" ≠ "" := by decide
  have hw : ∀ c ∈ "\t".toList, Token.Separator c := by
    intro c hc
    obtain rfl : c = '\t' := List.mem_singleton.mp hc
    decide
  have hw' : ∀ c ∈ " \n".toList, Token.Separator c := by
    intro c hc
    obtain rfl | rfl : c = ' ' ∨ c = '\n' := by simpa using hc
    · decide
    · decide
  have ha : Token.lex "y=x" = .ok [Token.word 0 ['y'], Token.sign 1 .assign '=',
      Token.word 2 ['x'], Token.endAt 3] := toOption_eq_some.mp (by decide +kernel)
  have hb : Token.lex "1" = .ok [Token.numeral 0 ['1'], Token.endAt 1] :=
    toOption_eq_some.mp (by decide +kernel)
  obtain ⟨htokens, -, -, hparse⟩ := lex_append_blanks "y=x" "1" "\t" hne hw
  have hlex := htokens _ _ ha hb
  have hread : Stmt.read [Token.word 0 ['y'], Token.sign 1 .assign '=', Token.word 2 ['x'],
      Token.numeral 4 ['1'], Token.endAt 5] =
        .error ⟨.trailingTokens .number ⟨4, 5⟩,
          ⟨some (Token.word 2 ['x']), [Token.numeral 4 ['1'], Token.endAt 5]⟩⟩ := by
    cbv
  have herror : Stmt.parse ("y=x" ++ "\t" ++ "1") =
      .error (.parse (.trailingTokens .number ⟨4, 5⟩)) := by
    rw [Stmt.parse_of_lex hlex]
    exact congrArg (Except.mapError Failure.parse) (Stmt.ofTokens_eq_error.mpr ⟨_, hread⟩)
  obtain ⟨err, herr, -, -, hmessage⟩ := (hparse " \n" (by decide) hw').2 _ herror
  exact ⟨hne, hw, hlex, herror, err, herr, hmessage⟩

end Reckon
