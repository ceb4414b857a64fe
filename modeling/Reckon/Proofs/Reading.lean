import Reckon.Proofs.Grammar
import Reckon.Proofs.Reader

/-!
# The readers accept the grammar within the nesting limit

The readers climb precedences in one loop, while the grammar has a layer for each. Both directions
are proved for any room.

* Soundness: what a reader gives has a derivation that costs at most its room
  (`operand_chain_sound`, `assignment_sound`, `statement_sound`). The invariant of the loop is that
  the tree built so far is a phrase of a layer which the next operator does not exceed, and that its
  cost is covered by its spine and the room that is left.
* Completeness: from the tokens of a derivation a reader gives its tree if the cost is within the
  room, and else finds the nesting too deep (`phrase_complete`, `expression_phrase`,
  `assignment_clause`, `statement_sentence`).

Hence the cost of a sentence is the least room with which it is read, so that a list of tokens has
at most one tree and one cost (`Sentence.unique`).
-/

namespace Reckon

namespace Cursor

theorem advance_rest_suffix (c : Cursor) : c.advance.rest <:+ c.rest := by
  obtain ⟨p, _ | ⟨t, ts⟩⟩ := c
  · exact List.suffix_rfl
  · exact List.suffix_cons t ts

/-- A place from which a nonempty rest is reached has a token of its own. -/
theorem exists_cons_of_suffix {c c' : Cursor} (h : c'.rest <:+ c.rest) (hne : c'.rest ≠ []) :
    ∃ p t ts, c = ⟨p, t :: ts⟩ := by
  obtain ⟨p, _ | ⟨t, ts⟩⟩ := c
  · exact absurd (List.suffix_nil.mp h) hne
  · exact ⟨p, t, ts, rfl⟩

end Cursor

namespace Parse

variable {room least : Nat} {c c' : Cursor} {e left : Expr} {halt : Halt}

/-! ## Soundness -/

theorem suffix_of_operand (h : operand room c = .ok (e, c')) : c'.rest <:+ c.rest :=
  holds_of_ok (I := fun d => d.rest <:+ c.rest) h <|
    (ends_operand_chain (fun d _ hd => d.advance_rest_suffix.trans hd) room).1 c List.suffix_rfl

theorem suffix_of_chain (h : chain room least left c = .ok (e, c')) : c'.rest <:+ c.rest :=
  holds_of_ok (I := fun d => d.rest <:+ c.rest) h <|
    (ends_operand_chain (fun d _ hd => d.advance_rest_suffix.trans hd) room).2 least left c
      List.suffix_rfl

theorem suffix_of_expression (h : expression room least c = .ok (e, c')) : c'.rest <:+ c.rest :=
  holds_of_ok (I := fun d => d.rest <:+ c.rest) h <|
    ends_expression (fun d _ hd => d.advance_rest_suffix.trans hd) room least List.suffix_rfl

theorem suffix_of_assignment (h : assignment room c = .ok (e, c')) : c'.rest <:+ c.rest :=
  holds_of_ok (I := fun d => d.rest <:+ c.rest) h <|
    ends_assignment (fun d _ hd => d.advance_rest_suffix.trans hd) room List.suffix_rfl

/-- Every operand that is read with `room` is a phrase that costs at most `room`. -/
def OperandSound (room : Nat) : Prop :=
  ∀ {c c' : Cursor} {e : Expr}, operand room c = .ok (e, c') → c'.rest ≠ [] →
    ∃ ts n k, Phrase Layer.unary ts e n k ∧ k ≤ room ∧ c.rest = ts ++ c'.rest

/-- The invariant of the loop: `left` is a phrase of a layer which the operator in sight does not
exceed, and its spine and the room left cover its cost. The loop ends with such a phrase. -/
def ChainSound (room : Nat) : Prop :=
  ∀ {least : Nat} {left e : Expr} {c c' : Cursor}, chain room least left c = .ok (e, c') →
    c'.rest ≠ [] → ∀ {q n k : Nat} {ls : List Token}, Phrase q ls left n k → max least 1 ≤ q →
    c.kind.Stops (q + 1) → k ≤ n + room →
    ∃ ts m d, Phrase (max least 1) ts e m d ∧ d ≤ n + room ∧ ls ++ c.rest = ts ++ c'.rest

theorem expression_sound_of (hop : OperandSound room) (hch : ChainSound room)
    (hl : least ≤ Layer.unary) (h : expression room least c = .ok (e, c')) (hne : c'.rest ≠ []) :
    ∃ ts n k, Phrase (max least 1) ts e n k ∧ k ≤ room ∧ c.rest = ts ++ c'.rest := by
  obtain ⟨first, c₁, h₁, h₂⟩ := expression_eq_ok h
  obtain ⟨p, t, us, rfl⟩ := Cursor.exists_cons_of_suffix (suffix_of_chain h₂) hne
  obtain ⟨ls, n, k, hls, hk, hc⟩ := hop h₁ (by simp)
  have hn := hls.spine_eq_zero (Nat.le_refl _)
  subst hn
  have hstop : t.kind.Stops (Layer.unary + 1) :=
    fun op _ => Nat.lt_succ_of_lt op.precedence_lt_unary
  have hlayer : max least 1 ≤ Layer.unary := Nat.max_le.mpr ⟨hl, by decide⟩
  obtain ⟨ts, m, d, hts, hd, hrest⟩ := hch h₂ hne hls hlayer hstop (by omega)
  exact ⟨ts, m, d, hts, by omega, hc.trans hrest⟩

theorem operand_sound_zero : OperandSound 0 := by
  intro c c' e h hne
  obtain ⟨p, t, us, rfl⟩ := Cursor.exists_cons_of_suffix (suffix_of_operand h) hne
  cases operandReads h with
  | number hk => exact ⟨[t], 0, 0, .tighter (.number hk), (Nat.le_refl _), rfl⟩
  | name hk => exact ⟨[t], 0, 0, .tighter (.name hk), (Nat.le_refl _), rfl⟩

theorem operand_sound_succ (hop : OperandSound room) (hch : ChainSound room) :
    OperandSound (room + 1) := by
  intro c c' e h hne
  obtain ⟨p, t, us, rfl⟩ := Cursor.exists_cons_of_suffix (suffix_of_operand h) hne
  cases operandReads h with
  | number hk => exact ⟨[t], 0, 0, .tighter (.number hk), by omega, rfl⟩
  | name hk => exact ⟨[t], 0, 0, .tighter (.name hk), by omega, rfl⟩
  | sign hk h₁ =>
    obtain ⟨ts, n, k, hts, hle, hrest⟩ := hop h₁ hne
    exact ⟨t :: ts, 0, 1 + k, .sign hk hts, by omega, congrArg (t :: ·) hrest⟩
  | @group _ _ c₁ _ hk h₁ hk' =>
    obtain ⟨q, r, vs, rfl⟩ := Cursor.exists_cons_of_suffix c₁.advance_rest_suffix hne
    obtain ⟨ts, n, k, hts, hle, hrest⟩ :=
      expression_sound_of hop hch (Nat.zero_le _) h₁ (List.cons_ne_nil r vs)
    refine ⟨t :: (ts ++ [r]), 0, 1 + k, .tighter (.group hk hts hk'), by omega, ?_⟩
    simpa using hrest

theorem chain_sound_zero : ChainSound 0 := by
  intro least left e c c' h hne q n k ls hls hq hstop hk
  cases chainReads h with
  | stop => exact ⟨ls, n, k, hls.loosen hq, hk, rfl⟩

theorem chain_sound_succ (hop : OperandSound room) (hch : ChainSound room) :
    ChainSound (room + 1) := by
  intro least left e c c' h hne q n k ls hls hq hstop hk
  cases chainReads h with
  | stop => exact ⟨ls, n, k, hls.loosen hq, hk, rfl⟩
  | @step _ _ op _ right _ _ c₁ _ hk' hle h₁ h₂ =>
    obtain ⟨q₁, t₁, us₁, hc₁⟩ := Cursor.exists_cons_of_suffix (suffix_of_chain h₂) hne
    have hne₁ : c₁.rest ≠ [] := by simp [hc₁]
    obtain ⟨p, t, us, rfl⟩ := Cursor.exists_cons_of_suffix
      ((suffix_of_expression h₁).trans c.advance_rest_suffix) hne₁
    obtain ⟨rs, m, d, hrs, hd, hrest⟩ :=
      expression_sound_of hop hch op.precedence_lt_unary h₁ hne₁
    have hop_pos := op.precedence_pos
    have hop_le : op.precedence ≤ q := Nat.le_of_lt_succ (hstop op hk')
    rw [Nat.max_eq_left (by omega)] at hrs
    -- the operator and its right operand extend the phrase on the left
    have hnew := Phrase.binary (hls.loosen hop_le) hk' rfl hrs
    obtain ⟨ts, m', d', hts, hd', hrest'⟩ :=
      hch h₂ hne hnew (by omega) (stops_of_expression h₁) (by omega)
    refine ⟨ts, m', d', hts, by omega, ?_⟩
    rw [← hrest']
    simpa using hrest

theorem operand_chain_sound (room : Nat) : OperandSound room ∧ ChainSound room := by
  induction room with
  | zero => exact ⟨operand_sound_zero, chain_sound_zero⟩
  | succ room ih => exact ⟨operand_sound_succ ih.1 ih.2, chain_sound_succ ih.1 ih.2⟩

theorem expression_sound (h : expression room 0 c = .ok (e, c')) (hne : c'.rest ≠ []) :
    ∃ ts n k, Phrase Layer.additive ts e n k ∧ k ≤ room ∧ c.rest = ts ++ c'.rest :=
  expression_sound_of (operand_chain_sound room).1 (operand_chain_sound room).2 (Nat.zero_le _) h
    hne

theorem assignment_sound (h : assignment room c = .ok (e, c')) (hne : c'.rest ≠ []) :
    ∃ ts k, Clause ts e k ∧ k ≤ room ∧ c.rest = ts ++ c'.rest := by
  induction room generalizing c e with
  | zero =>
    cases assignmentReads h with
    | value h₁ =>
      obtain ⟨ts, n, k, hts, hk, hrest⟩ := expression_sound h₁ hne
      exact ⟨ts, k, .value hts, hk, hrest⟩
  | succ room ih =>
    cases assignmentReads h with
    | value h₁ =>
      obtain ⟨ts, n, k, hts, hk, hrest⟩ := expression_sound h₁ hne
      exact ⟨ts, k, .value hts, hk, hrest⟩
    | @step _ _ c₁ _ _ _ h₁ hk h₂ =>
      obtain ⟨p, t, us, rfl⟩ := Cursor.exists_cons_of_suffix
        ((suffix_of_assignment h₂).trans c₁.advance_rest_suffix) hne
      obtain ⟨ts, n, k, hts, hle, hrest⟩ := expression_sound h₁ (List.cons_ne_nil t us)
      obtain ⟨vs, d, hvs, hd, hrest'⟩ := ih h₂
      refine ⟨ts ++ t :: vs, max k (1 + d), .assign hts hk hvs, by omega, ?_⟩
      have hus : us = vs ++ c'.rest := hrest'
      simp [hrest, hus]

theorem statement_sound {s : Stmt} (h : statement room c = .ok (s, c')) (hne : c'.rest ≠ []) :
    ∃ ts k, Sentence ts s k ∧ k ≤ room ∧ c.rest = ts ++ c'.rest := by
  cases statementReads h with
  | expr _ h₁ =>
    obtain ⟨ts, k, hts, hk, hrest⟩ := assignment_sound h₁ hne
    exact ⟨ts, k, .expr hts, hk, hrest⟩
  | @render c₁ _ hk hl h₁ hr =>
    obtain ⟨q, r, vs, rfl⟩ := Cursor.exists_cons_of_suffix c₁.advance_rest_suffix hne
    have hsuf := suffix_of_assignment h₁
    obtain ⟨p, t, us, rfl⟩ := Cursor.exists_cons_of_suffix
      ((hsuf.trans c.advance.advance_rest_suffix).trans c.advance_rest_suffix)
      (List.cons_ne_nil r vs)
    obtain ⟨_, l, ws, hus⟩ := Cursor.exists_cons_of_suffix
      (hsuf.trans (Cursor.advance ⟨p, t :: us⟩).advance_rest_suffix) (List.cons_ne_nil r vs)
    cases hus
    obtain ⟨ts, k, hts, hle, hrest⟩ := assignment_sound h₁ (List.cons_ne_nil r vs)
    refine ⟨t :: l :: (ts ++ [r]), k, .render hk hl hts hr, hle, ?_⟩
    simpa using hrest

/-- A reader that ends at an end mark has not used up its tokens. -/
theorem rest_ne_nil_of_statement {tokens : List Token} {s : Stmt}
    (h : statement room (.start tokens) = .ok (s, c)) (hk : c.kind = .eof) : c.rest ≠ [] := by
  -- behind its last token a cursor goes on showing that token, which the reader moved past
  have hI : ∀ d : Cursor, d.kind ≠ .eof → (d.rest = [] → d.kind ≠ .eof) →
      d.advance.rest = [] → d.advance.kind ≠ .eof := by
    rintro ⟨p, _ | ⟨t, ts⟩⟩ hd - hnil
    · exact hd
    · cases hnil
      exact hd
  cases tokens with
  | nil =>
    cases statementReads h with
    | expr _ h₁ =>
      have hmiss : operand room (.start []) = .error _ :=
        operand_missing rfl (by decide) (by decide) (by decide)
      rw [assignment_error (expression_error hmiss)] at h₁
      cases h₁
    | render hrender => cases hrender
  | cons t ts =>
    exact fun hnil => holds_of_ok (I := fun d => d.rest = [] → d.kind ≠ .eof) h
      (ends_statement hI room (by simp [Cursor.start])) hnil hk

end Parse

theorem Stmt.read_eq_ok {tokens : List Token} {s : Stmt} :
    Stmt.read tokens = .ok s ↔
      ∃ c, Parse.statement maxNesting (.start tokens) = .ok (s, c) ∧ c.kind = .eof := by
  unfold Stmt.read
  cases Parse.statement maxNesting (.start tokens) with
  | error halt => simp [bind, Except.bind]
  | ok r =>
    by_cases hk : r.2.kind = .eof
    · simp only [bind, Except.bind, hk, if_true, pure, Except.pure, Except.ok.injEq]
      constructor
      · rintro rfl
        exact ⟨r.2, rfl, hk⟩
      · rintro ⟨c, rfl, -⟩
        rfl
    · simp only [bind, Except.bind, hk, if_false, reduceCtorEq, Except.ok.injEq, false_iff]
      rintro ⟨c, rfl, hc⟩
      exact hk hc

/-- What is read is a sentence in front of an end mark. -/
theorem Stmt.read_sound {tokens : List Token} {s : Stmt} (h : Stmt.read tokens = .ok s) :
    ∃ ts e post k, Sentence ts s k ∧ k ≤ maxNesting ∧ e.kind = .eof ∧ tokens = ts ++ e :: post := by
  obtain ⟨c, hc, hk⟩ := Stmt.read_eq_ok.mp h
  have hne := Parse.rest_ne_nil_of_statement hc hk
  obtain ⟨p, e, post, rfl⟩ := Cursor.exists_cons_of_suffix List.suffix_rfl hne
  obtain ⟨ts, k, hts, hle, hrest⟩ := Parse.statement_sound hc hne
  exact ⟨ts, e, post, k, hts, hle, hk, hrest⟩

/-! ## Completeness -/

/-- The token read last after `ts` has been read. -/
def Cursor.behind (p : Option Token) (ts : List Token) : Option Token :=
  ts.foldl (fun _ t => some t) p

@[simp] theorem Cursor.behind_nil (p : Option Token) : behind p [] = p :=
  rfl

@[simp] theorem Cursor.behind_cons (p : Option Token) (t : Token) (ts : List Token) :
    behind p (t :: ts) = behind (some t) ts :=
  rfl

@[simp] theorem Cursor.behind_append (p : Option Token) (ts us : List Token) :
    behind p (ts ++ us) = behind (behind p ts) us :=
  List.foldl_append

namespace Parse

/-- The reading `r` gives `answer` if `cost` levels fit into the room, and else finds the nesting
too deep. -/
def Within {α : Type} (room cost : Nat) (r answer : Except Halt α) : Prop :=
  (cost ≤ room → r = answer) ∧ (room < cost → ∃ c : Cursor, r = .error c.tooDeep)

theorem within_zero {α : Type} {room : Nat} {r answer : Except Halt α} (h : r = answer) :
    Within room 0 r answer :=
  ⟨fun _ => h, fun hlt => absurd hlt (Nat.not_lt_zero _)⟩

theorem within_tooDeep {α : Type} {cost : Nat} {c : Cursor} {r answer : Except Halt α}
    (h : r = .error c.tooDeep) : Within 0 (1 + cost) r answer :=
  ⟨fun hle => by omega, fun _ => ⟨c, h⟩⟩

/-- One level up: a reading that hands on the errors of another one with one level less. -/
theorem Within.succ {α β : Type} {room cost : Nat} {r a : Except Halt α} {r' a' : Except Halt β}
    (h : Within room cost r a) (hok : r = a → r' = a')
    (herr : ∀ halt, r = .error halt → r' = .error halt) : Within (room + 1) (1 + cost) r' a' := by
  refine ⟨fun hle => hok (h.1 (by omega)), fun hlt => ?_⟩
  obtain ⟨c, hc⟩ := h.2 (by omega)
  exact ⟨c, herr _ hc⟩

variable {room least p n k : Nat} {ts : List Token} {e : Expr}

theorem Within.expression {c c' : Cursor} (h : Within room k (operand room c) (.ok (e, c'))) :
    Within room k (expression room least c) (chain room least e c') := by
  refine ⟨fun hle => expression_ok (h.1 hle), fun hlt => ?_⟩
  obtain ⟨d, hd⟩ := h.2 hlt
  exact ⟨d, expression_error hd⟩

/-- The reader of operands on the tokens of a phrase, whatever follows them. -/
def OperandComplete (ts : List Token) (e : Expr) (k : Nat) : Prop :=
  ∀ room prev rest,
    Within room k (operand room ⟨prev, ts ++ rest⟩) (.ok (e, ⟨Cursor.behind prev ts, rest⟩))

/-- The reader of expressions on the tokens of a phrase of layer `p`: it goes on behind them with
the room that the spine leaves, unless a tighter operator takes the last operand away. -/
def ExpressionComplete (p : Nat) (ts : List Token) (e : Expr) (n k : Nat) : Prop :=
  ∀ room least prev rest, least ≤ p →
    (Cursor.kind ⟨Cursor.behind prev ts, rest⟩).Stops (p + 1) →
    Within room k (expression room least ⟨prev, ts ++ rest⟩)
      (chain (room - n) least e ⟨Cursor.behind prev ts, rest⟩)

theorem OperandComplete.expression (h : OperandComplete ts e k) :
    ExpressionComplete p ts e 0 k :=
  fun room _ prev rest _ _ => (h room prev rest).expression

theorem operandComplete_group {l r : Token} (hl : l.kind = .leftParen)
    (h : ExpressionComplete Layer.additive ts e n k) (hr : r.kind = .rightParen) :
    OperandComplete (l :: (ts ++ [r])) e (1 + k) := by
  intro room prev rest
  have hopen : Cursor.kind ⟨prev, l :: (ts ++ [r]) ++ rest⟩ = .leftParen := hl
  have hclose : Cursor.kind ⟨Cursor.behind (some l) ts, r :: rest⟩ = .rightParen := hr
  have hstop : ∀ least, (Cursor.kind ⟨Cursor.behind (some l) ts, r :: rest⟩).Stops least :=
    fun least => Token.Kind.stops_of_binaryOp?_eq_none least (by rw [hclose]; rfl)
  cases room with
  | zero => exact within_tooDeep (operand_opens (.inl hopen))
  | succ room =>
    have h' := h room 0 (some l) (r :: rest) (Nat.zero_le _) (hstop _)
    rw [chain_stops (hstop 0)] at h'
    have hinner : Cursor.advance ⟨prev, l :: (ts ++ [r]) ++ rest⟩ = ⟨some l, ts ++ r :: rest⟩ := by
      simp
    rw [operand_group hopen, hinner]
    refine h'.succ (fun hok => ?_) (fun halt herr => ?_)
    · simp [hok, Except.bind, Cursor.expect_of_kind hclose, Except.map]
    · simp [herr, Except.bind]

theorem operandComplete_sign {t : Token} {op : UnaryOp} (ht : t.kind.unaryOp? = some op)
    (h : OperandComplete ts e k) : OperandComplete (t :: ts) (.unary op e) (1 + k) := by
  intro room prev rest
  have hop : (Cursor.kind ⟨prev, t :: ts ++ rest⟩).unaryOp? = some op := ht
  cases room with
  | zero => exact within_tooDeep (operand_opens (.inr ⟨op, hop⟩))
  | succ room =>
    rw [operand_sign hop]
    refine (h room (some t) rest).succ (fun hok => ?_) (fun halt herr => ?_)
    · simp [hok, Except.map]
    · simp [herr, Except.map]

theorem expressionComplete_binary {t : Token} {op : BinaryOp} {us : List Token} {a b : Expr}
    {m d : Nat} (hn : n ≤ k) (hl : ExpressionComplete p ts a n k)
    (ht : t.kind.binaryOp? = some op) (hp : op.precedence = p)
    (hr : ExpressionComplete (p + 1) us b m d) :
    ExpressionComplete p (ts ++ t :: us) (.binary op a b) (n + 1) (max k (n + 1 + d)) := by
  subst hp
  intro room least prev rest hle hstop
  simp only [Cursor.behind_append, Cursor.behind_cons] at hstop ⊢
  have hop : (Cursor.kind ⟨Cursor.behind prev ts, t :: (us ++ rest)⟩).binaryOp? = some op := ht
  have hself : t.kind.Stops (op.precedence + 1) := by
    intro op' hop'
    rw [ht] at hop'
    cases hop'
    exact Nat.lt_succ_self _
  have hleft := hl room least prev (t :: (us ++ rest)) hle hself
  rw [List.append_assoc, List.cons_append]
  by_cases hk : k ≤ room
  · rw [hleft.1 hk]
    -- the operator itself takes one of the levels that the spine on its left leaves
    cases hroom : room - n with
    | zero =>
      refine ⟨fun hmax => by omega, fun _ => ⟨_, chain_tooDeep hop hle⟩⟩
    | succ rest' =>
      have hright := hr rest' (op.precedence + 1) (some t) rest (Nat.le_refl _)
        (hstop.mono (Nat.le_succ _))
      rw [chain_stops hstop] at hright
      rw [chain_step hop hle, show room - (n + 1) = rest' by omega]
      refine ⟨fun hmax => ?_, fun hmax => ?_⟩
      · have hok := hright.1 (by omega)
        simp [hok, Except.bind]
      · obtain ⟨c, hc⟩ := hright.2 (by omega)
        exact ⟨c, by simp [hc, Except.bind]⟩
  · obtain ⟨c, hc⟩ := hleft.2 (by omega)
    exact ⟨fun hmax => by omega, fun _ => ⟨c, hc⟩⟩

/-- The readers on the tokens of a phrase, by induction on its derivation. -/
theorem phrase_complete (h : Phrase p ts e n k) :
    (Layer.unary ≤ p → OperandComplete ts e k) ∧ ExpressionComplete p ts e n k := by
  have both : ∀ {p ts e k}, OperandComplete ts e k →
      (Layer.unary ≤ p → OperandComplete ts e k) ∧ ExpressionComplete p ts e 0 k :=
    fun h => ⟨fun _ => h, h.expression⟩
  induction h with
  | number ht => exact both fun _ _ _ => within_zero (operand_number ht)
  | name ht => exact both fun _ _ _ => within_zero (operand_identifier ht)
  | group hl _ hr ih => exact both (operandComplete_group hl ih.2 hr)
  | sign ht _ ih => exact both (operandComplete_sign ht (ih.1 (Nat.le_refl _)))
  | @binary p t op _ _ _ _ _ _ _ _ left ht hp _ ihl ihr =>
    refine ⟨fun hle => ?_, expressionComplete_binary left.spine_le_cost ihl.2 ht hp ihr.2⟩
    exact absurd (hp ▸ op.precedence_lt_unary) (Nat.not_lt.mpr hle)
  | tighter _ ih =>
    refine ⟨fun hle => ih.1 (Nat.le_succ_of_le hle), fun room least prev rest hle hstop => ?_⟩
    exact ih.2 room least prev rest (Nat.le_succ_of_le hle) (hstop.mono (Nat.le_succ _))

/-- An expression of the loosest layer is read up to a token that is no operator. -/
theorem expression_phrase (h : Phrase Layer.additive ts e n k) (room : Nat) (prev : Option Token)
    (rest : List Token)
    (hstop : (Cursor.kind ⟨Cursor.behind prev ts, rest⟩).binaryOp? = none) :
    Within room k (expression room 0 ⟨prev, ts ++ rest⟩)
      (.ok (e, ⟨Cursor.behind prev ts, rest⟩)) := by
  have hstops := fun least => Token.Kind.stops_of_binaryOp?_eq_none least hstop
  have h' := (phrase_complete h).2 room 0 prev rest (Nat.zero_le _) (hstops _)
  rwa [chain_stops (hstops 0)] at h'

theorem assignment_clause (h : Clause ts e k) (room : Nat) (prev : Option Token)
    (rest : List Token)
    (hstop : (Cursor.kind ⟨Cursor.behind prev ts, rest⟩).binaryOp? = none)
    (hassign : Cursor.kind ⟨Cursor.behind prev ts, rest⟩ ≠ .assign) :
    Within room k (assignment room ⟨prev, ts ++ rest⟩)
      (.ok (e, ⟨Cursor.behind prev ts, rest⟩)) := by
  induction h generalizing room prev with
  | value h =>
    have h' := expression_phrase h room prev rest hstop
    refine ⟨fun hle => assignment_value (h'.1 hle) hassign, fun hlt => ?_⟩
    obtain ⟨c, hc⟩ := h'.2 hlt
    exact ⟨c, assignment_error hc⟩
  | @assign t ts us name e n k d target ht _ ih =>
    simp only [Cursor.behind_append, Cursor.behind_cons] at hstop hassign ⊢
    rw [List.append_assoc, List.cons_append]
    have hk : Cursor.kind ⟨Cursor.behind prev ts, t :: (us ++ rest)⟩ = .assign := ht
    have htarget := expression_phrase target room prev _ (by rw [hk]; rfl)
    by_cases hle : k ≤ room
    · cases room with
      | zero =>
        exact ⟨fun hmax => by omega, fun _ => ⟨_, assignment_tooDeep (htarget.1 hle) hk⟩⟩
      | succ room =>
        have hvalue := ih room (some t) hstop hassign
        rw [assignment_step (htarget.1 hle) hk, Cursor.advance_cons]
        refine ⟨fun hmax => ?_, fun hmax => ?_⟩
        · simp [hvalue.1 (by omega), Except.map]
        · obtain ⟨c, hc⟩ := hvalue.2 (by omega)
          exact ⟨c, by simp [hc, Except.map]⟩
    · obtain ⟨c, hc⟩ := htarget.2 (by omega)
      exact ⟨fun hmax => by omega, fun _ => ⟨c, assignment_error hc⟩⟩

theorem statement_sentence {s : Stmt} (h : Sentence ts s k) (room : Nat) (prev : Option Token)
    (rest : List Token) (hend : Cursor.kind ⟨Cursor.behind prev ts, rest⟩ = .eof) :
    Within room k (statement room ⟨prev, ts ++ rest⟩)
      (.ok (s, ⟨Cursor.behind prev ts, rest⟩)) := by
  cases h with
  | expr h =>
    have hkind : Cursor.kind ⟨prev, ts ++ rest⟩ ≠ .render := by
      obtain ⟨t, us, rfl⟩ := List.exists_cons_of_ne_nil h.ne_nil
      exact (h.kind_ne t List.mem_cons_self).2
    have h' := assignment_clause h room prev rest (by rw [hend]; rfl) (by simp [hend])
    rw [statement_expr hkind]
    refine ⟨fun hle => by simp [h'.1 hle, Except.map], fun hlt => ?_⟩
    obtain ⟨c, hc⟩ := h'.2 hlt
    exact ⟨c, by simp [hc, Except.map]⟩
  | @render w l r ts e _ hw hl h hr =>
    have hclose : Cursor.kind ⟨Cursor.behind (some l) ts, r :: rest⟩ = .rightParen := hr
    have h' := assignment_clause h room (some l) _ (by rw [hclose]; rfl) (by simp [hclose])
    have hopen : Cursor.kind ⟨prev, w :: l :: (ts ++ [r]) ++ rest⟩ = .render := hw
    rw [statement_render hopen hl]
    have hinner : (Cursor.advance ⟨prev, w :: l :: (ts ++ [r]) ++ rest⟩).advance =
        ⟨some l, ts ++ r :: rest⟩ := by simp
    rw [hinner]
    refine ⟨fun hle => ?_, fun hlt => ?_⟩
    · simp [h'.1 hle, Except.bind, Cursor.expect_of_kind hclose, Except.map]
    · obtain ⟨c, hc⟩ := h'.2 hlt
      exact ⟨c, by simp [hc, Except.bind]⟩

end Parse

/-! ## Sentences and statements -/

/-- A list of tokens spells at most one statement, at one cost: the least room to read it with. -/
theorem Sentence.unique {ts : List Token} {s s' : Stmt} {k k' : Nat} (h : Sentence ts s k)
    (h' : Sentence ts s' k') : s = s' ∧ k = k' := by
  have hend : Cursor.kind ⟨Cursor.behind none ts, [Token.endAt 0]⟩ = .eof := rfl
  -- read with the room `k` the tokens are not too deep, so the other cost is within `k` as well
  have key : ∀ {s s' k k'}, Sentence ts s k → Sentence ts s' k' → s = s' ∧ k' ≤ k := by
    intro s s' k k' h h'
    have hread := (Parse.statement_sentence h k none _ hend).1 (Nat.le_refl k)
    have hread' := Parse.statement_sentence h' k none _ hend
    by_cases hle : k' ≤ k
    · rw [hread'.1 hle] at hread
      cases hread
      exact ⟨rfl, hle⟩
    · obtain ⟨c, hc⟩ := hread'.2 (by omega)
      rw [hc] at hread
      cases hread
  obtain ⟨hs, hle⟩ := key h h'
  exact ⟨hs, Nat.le_antisymm (key h' h).2 hle⟩

theorem Stmt.read_of_sentence {ts : List Token} {e : Token} {s : Stmt} {k : Nat}
    (h : Sentence ts s k) (he : e.kind = .eof) (hk : k ≤ maxNesting) (post : List Token) :
    Stmt.read (ts ++ e :: post) = .ok s :=
  Stmt.read_eq_ok.mpr ⟨_, (Parse.statement_sentence h maxNesting none (e :: post) he).1 hk, he⟩

theorem Stmt.read_tooDeep {ts : List Token} {e : Token} {s : Stmt} {k : Nat}
    (h : Sentence ts s k) (he : e.kind = .eof) (hk : maxNesting < k) (post : List Token) :
    ∃ c : Cursor, Stmt.read (ts ++ e :: post) = .error c.tooDeep := by
  obtain ⟨c, hc⟩ := (Parse.statement_sentence h maxNesting none (e :: post) he).2 hk
  refine ⟨c, ?_⟩
  have hstart : Cursor.start (ts ++ e :: post) = ⟨none, ts ++ e :: post⟩ := rfl
  simp [Stmt.read, hstart, hc, bind, Except.bind]

theorem mapError_eq_ok {α ε ε' : Type} {f : ε → ε'} {x : Except ε α} {a : α} :
    x.mapError f = .ok a ↔ x = .ok a := by
  cases x with
  | ok b =>
    constructor
    · rintro ⟨⟩
      rfl
    · rintro ⟨⟩
      rfl
  | error err => exact ⟨nofun, nofun⟩

theorem toOption_eq_some {ε α : Type} {x : Except ε α} {a : α} :
    x.toOption = some a ↔ x = .ok a := by
  cases x with
  | ok b => exact ⟨fun h => congrArg _ (Option.some.inj h), fun h => congrArg _ (Except.ok.inj h)⟩
  | error e => exact ⟨nofun, nofun⟩

theorem Stmt.ofTokens_eq_ok {tokens : List Token} {s : Stmt} :
    Stmt.ofTokens tokens = .ok s ↔ Stmt.read tokens = .ok s :=
  mapError_eq_ok

/-- A list of tokens is accepted if a sentence within the limit stands in front of an end mark. -/
theorem Stmt.ofTokens_eq_ok_iff_sentence {tokens : List Token} {s : Stmt} :
    Stmt.ofTokens tokens = .ok s ↔
      ∃ ts e post k,
        Sentence ts s k ∧ k ≤ maxNesting ∧ e.kind = .eof ∧ tokens = ts ++ e :: post := by
  rw [Stmt.ofTokens_eq_ok]
  refine ⟨Stmt.read_sound, ?_⟩
  rintro ⟨ts, e, post, k, hs, hk, he, rfl⟩
  exact Stmt.read_of_sentence hs he hk post

/-- The body of an accepted statement is a clause within the limit. -/
theorem Stmt.clause_of_ofTokens {tokens : List Token} {s : Stmt}
    (h : Stmt.ofTokens tokens = .ok s) : ∃ ts k, Clause ts s.body k ∧ k ≤ maxNesting := by
  obtain ⟨ts, _, _, k, hts, hk, -, -⟩ := Stmt.ofTokens_eq_ok_iff_sentence.mp h
  cases hts with
  | expr h => exact ⟨_, k, h, hk⟩
  | render _ _ h _ => exact ⟨_, k, h, hk⟩

end Reckon
