import Reckon.Proofs.Reading

/-!
# Errors are found at the first token that is wrong

A reading that halts at a token has decided on its error by what it read and by that token: whatever
follows, the error is the same (`Decides`). And what was read could have gone on: there are tokens
that complete it to something accepted, without a level more than there is (`Completes`). In front
of an operand that is missing the completion starts with a numeral; behind an operand it only closes
the groups that are open.

The two facts are proved together for each reader, by induction on the room. A reading that succeeds
inside of one that halts is replayed on the changed tokens by way of its derivation
(`operand_replays`, `expression_replays`, `assignment_replays`).
-/

namespace Reckon

@[simp] theorem Cursor.unexpected_cons (p : Option Token) (t : Token) (us ws : List Token)
    (expected : Expected) :
    (Cursor.unexpected ⟨p, t :: us⟩ expected).error =
      (Cursor.unexpected ⟨p, t :: ws⟩ expected).error := by
  unfold Cursor.unexpected
  simp only [Cursor.kind_cons, Cursor.current_cons]
  split <;> rfl

theorem Cursor.unexpected_eq (c : Cursor) (expected : Expected) :
    c.unexpected expected = ⟨(c.unexpected expected).error, c⟩ := by
  unfold Cursor.unexpected
  split <;> rfl

theorem Cursor.current_append (p : Option Token) (pre : List Token) (t : Token)
    (us ws : List Token) :
    Cursor.current ⟨p, pre ++ t :: us⟩ = Cursor.current ⟨p, pre ++ t :: ws⟩ := by
  cases pre <;> rfl

namespace Parse

variable {room least : Nat} {c c' : Cursor} {e left : Expr} {halt : Halt}

/-! ## Replaying a success -/

theorem previous_eq_of_replay {α : Type} {f : Cursor → Except Halt (α × Cursor)} {a b : α}
    {pre : List Token} {q : Option Token} (h : f c = .ok (a, c')) (hrest : c.rest = pre ++ c'.rest)
    (hreplay : f ⟨c.previous?, pre ++ c'.rest⟩ = .ok (b, ⟨q, c'.rest⟩)) : c'.previous? = q := by
  rw [← hrest] at hreplay
  have hsame := Except.ok.inj (h.symm.trans hreplay)
  exact congrArg (fun r => r.2.previous?) hsame

/-- What is read as an operand is so whatever follows. -/
theorem operand_replays (h : operand room c = .ok (e, c')) (hne : c'.rest ≠ []) :
    ∃ pre, c.rest = pre ++ c'.rest ∧ c'.previous? = Cursor.behind c.previous? pre ∧
      ∀ w, operand room ⟨c.previous?, pre ++ w⟩ =
        .ok (e, ⟨Cursor.behind c.previous? pre, w⟩) := by
  obtain ⟨pre, n, k, hpre, hk, hrest⟩ := (operand_chain_sound room).1 h hne
  have hreplay := fun w => ((phrase_complete hpre).1 (Nat.le_refl _) room c.previous? w).1 hk
  exact ⟨pre, hrest, previous_eq_of_replay h hrest (hreplay _), hreplay⟩

/-- What is read as an expression is so in front of every token that stops it. -/
theorem expression_replays (hl : least ≤ Layer.unary) (h : expression room least c = .ok (e, c'))
    (hne : c'.rest ≠ []) :
    ∃ pre, c.rest = pre ++ c'.rest ∧ c'.previous? = Cursor.behind c.previous? pre ∧
      ∀ t w, t.kind.Stops least → expression room least ⟨c.previous?, pre ++ t :: w⟩ =
        .ok (e, ⟨Cursor.behind c.previous? pre, t :: w⟩) := by
  obtain ⟨hop, hch⟩ := operand_chain_sound room
  obtain ⟨pre, n, k, hpre, hk, hrest⟩ := expression_sound_of hop hch hl h hne
  have hreplay : ∀ t w, t.kind.Stops least → expression room least ⟨c.previous?, pre ++ t :: w⟩ =
      .ok (e, ⟨Cursor.behind c.previous? pre, t :: w⟩) := by
    intro t w hstop
    have := ((phrase_complete hpre).2 room least c.previous? (t :: w) (Nat.le_max_left _ _)
      (hstop.mono (by omega))).1 hk
    rw [this]
    exact chain_stops hstop
  refine ⟨pre, hrest, ?_, hreplay⟩
  obtain ⟨q, t, us, rfl⟩ := Cursor.exists_cons_of_suffix List.suffix_rfl hne
  exact previous_eq_of_replay h hrest (hreplay t us (stops_of_expression h))

theorem binaryOp?_of_expression (h : expression room 0 c = .ok (e, c')) :
    c'.kind.binaryOp? = none := by
  have hstop := stops_of_expression h
  cases hop : c'.kind.binaryOp? with
  | none => rfl
  | some op => exact absurd (hstop op hop) (Nat.not_lt_zero _)

theorem stops_of_assignment (h : assignment room c = .ok (e, c')) :
    c'.kind.binaryOp? = none ∧ c'.kind ≠ .assign := by
  induction room generalizing c e with
  | zero =>
    cases assignmentReads h with
    | value h hk => exact ⟨binaryOp?_of_expression h, hk⟩
  | succ room ih =>
    cases assignmentReads h with
    | value h hk => exact ⟨binaryOp?_of_expression h, hk⟩
    | step _ _ h' => exact ih h'

theorem assignment_replays (h : assignment room c = .ok (e, c')) (hne : c'.rest ≠ []) :
    ∃ pre, c.rest = pre ++ c'.rest ∧ c'.previous? = Cursor.behind c.previous? pre ∧
      ∀ t w, t.kind.binaryOp? = none → t.kind ≠ .assign →
        assignment room ⟨c.previous?, pre ++ t :: w⟩ =
          .ok (e, ⟨Cursor.behind c.previous? pre, t :: w⟩) := by
  obtain ⟨pre, k, hpre, hk, hrest⟩ := assignment_sound h hne
  have hreplay : ∀ t w, t.kind.binaryOp? = none → t.kind ≠ .assign →
      assignment room ⟨c.previous?, pre ++ t :: w⟩ =
        .ok (e, ⟨Cursor.behind c.previous? pre, t :: w⟩) :=
    fun t w hop hassign => (assignment_clause hpre room c.previous? (t :: w) hop hassign).1 hk
  refine ⟨pre, hrest, ?_, hreplay⟩
  obtain ⟨q, t, us, rfl⟩ := Cursor.exists_cons_of_suffix List.suffix_rfl hne
  have hstop := stops_of_assignment h
  exact previous_eq_of_replay h hrest (hreplay t us hstop.1 hstop.2)

/-! ## Readings that halt -/

/-- The reader `f` halts at `t`, with `pre` read and `post` not seen: any other tokens in place of
`post` give the same error at the same place. -/
structure Decides {α : Type} (f : Cursor → Except Halt (α × Cursor)) (c : Cursor) (halt : Halt)
    (pre : List Token) (t : Token) (post : List Token) : Prop where
  rest_eq : c.rest = pre ++ t :: post
  place_eq : halt.place = ⟨Cursor.behind c.previous? pre, t :: post⟩
  decided : ∀ w, f ⟨c.previous?, pre ++ t :: w⟩ =
    .error ⟨halt.error, ⟨Cursor.behind c.previous? pre, t :: w⟩⟩

/-- With `w` behind it, `pre` is read by `f` in front of every token that stops `f`. -/
def Completes {α : Type} (f : Cursor → Except Halt (α × Cursor)) (p : Option Token)
    (pre w : List Token) (stop : Token.Kind → Prop) : Prop :=
  ∀ (t : Token) (us : List Token), stop t.kind →
    ∃ a q, f ⟨p, pre ++ (w ++ t :: us)⟩ = .ok (a, ⟨q, t :: us⟩)

/-- The reader `f` halts at the first token that is wrong. -/
def HaltsAtFirstError {α : Type} (f : Cursor → Except Halt (α × Cursor)) (c : Cursor) (halt : Halt)
    (stop : Token.Kind → Prop) : Prop :=
  ∃ pre t post w, Decides f c halt pre t post ∧ Completes f c.previous? pre w stop

/-- The numeral that stands in for a missing operand. -/
def filler : Token :=
  ⟨.number, .point 0, "0", some 0⟩

def opener : Token :=
  ⟨.leftParen, .point 0, "(", none⟩

def closer : Token :=
  ⟨.rightParen, .point 0, ")", none⟩

theorem stops_closer (least : Nat) : closer.kind.Stops least :=
  Token.Kind.stops_of_binaryOp?_eq_none least rfl

/-- An operand can be completed in front of any token. -/
def OperandHaltSpec (room : Nat) : Prop :=
  ∀ {c : Cursor} {halt : Halt}, operand room c = .error halt → halt.place.rest ≠ [] →
    HaltsAtFirstError (operand room) c halt fun _ => True

/-- A chain that is refused at its first operator is complete in front of it. -/
def ChainHaltsAtFirstError (room least : Nat) (left : Expr) (c : Cursor) (halt : Halt) : Prop :=
  ∃ pre t post w, Decides (chain room least left) c halt pre t post ∧
    Completes (chain room least left) c.previous? pre w (·.Stops least) ∧ (pre = [] → w = [])

def ChainHaltSpec (room : Nat) : Prop :=
  ∀ {least : Nat} {left : Expr} {c : Cursor} {halt : Halt}, chain room least left c = .error halt →
    halt.place.rest ≠ [] → ChainHaltsAtFirstError room least left c halt

theorem operand_filler (room : Nat) (p : Option Token) (us : List Token) :
    operand room ⟨p, filler :: us⟩ = .ok (.number 0, ⟨some filler, us⟩) :=
  operand_number rfl

/-- A reader of operands that halts at once could read a numeral instead. -/
theorem completes_filler (room : Nat) (p : Option Token) :
    Completes (operand room) p [] [filler] fun _ => True :=
  fun t us _ => ⟨.number 0, some filler, operand_filler room p (t :: us)⟩

theorem operandHaltSpec_tooDeep (hk : c.kind.Opens) (hne : c.rest ≠ []) :
    HaltsAtFirstError (operand 0) c c.tooDeep fun _ => True := by
  obtain ⟨p, t, us, rfl⟩ := Cursor.exists_cons_of_suffix List.suffix_rfl hne
  exact ⟨[], t, us, [filler], ⟨rfl, rfl, fun w => operand_opens hk⟩, completes_filler 0 p⟩

theorem operandHaltSpec_missing (hu : c.kind.unaryOp? = none) (hn : c.kind ≠ .number)
    (hi : c.kind ≠ .identifier) (hl : c.kind ≠ .leftParen) (hne : c.rest ≠ []) :
    HaltsAtFirstError (operand room) c (c.unexpected .expression) fun _ => True := by
  obtain ⟨p, t, us, rfl⟩ := Cursor.exists_cons_of_suffix List.suffix_rfl hne
  refine ⟨[], t, us, [filler], ⟨rfl, by simp, fun w => ?_⟩, completes_filler room p⟩
  have hmissing : operand room ⟨p, t :: w⟩ = _ := operand_missing hu hn hi hl
  rw [List.nil_append, hmissing, Cursor.unexpected_eq, Cursor.unexpected_cons p t w us]
  rfl

/-- A reader `f'` that halts as `f` does, once `f'` has read `read`. It may look at the first of the
tokens that `f` goes on with. -/
theorem Decides.after {α β : Type} {f : Cursor → Except Halt (α × Cursor)}
    {f' : Cursor → Except Halt (β × Cursor)} {p : Option Token} (read : List Token)
    {us pre post : List Token} {t : Token}
    (h : Decides f ⟨Cursor.behind p read, us⟩ halt pre t post)
    (herr : ∀ us' halt', us'.head? = us.head? → f ⟨Cursor.behind p read, us'⟩ = .error halt' →
      f' ⟨p, read ++ us'⟩ = .error halt') :
    Decides f' ⟨p, read ++ us⟩ halt (read ++ pre) t post := by
  have hus : us = pre ++ t :: post := h.rest_eq
  refine ⟨by simp [hus], by simp [h.place_eq], fun w => ?_⟩
  simp only [List.append_assoc, Cursor.behind_append]
  refine herr _ _ ?_ (h.decided w)
  cases pre <;> simp [hus]

theorem Decides.ne_nil {α : Type} {f : Cursor → Except Halt (α × Cursor)} {pre post : List Token}
    {t : Token} (h : Decides f c halt pre t post) : c.rest ≠ [] := by
  simp [h.rest_eq]

theorem expression_halt_of (hop : OperandHaltSpec room) (hch : ChainHaltSpec room)
    (h : expression room least c = .error halt) (hne : halt.place.rest ≠ []) :
    HaltsAtFirstError (expression room least) c halt (·.Stops least) := by
  rcases expression_eq_error h with h | ⟨first, c₁, h₁, h₂⟩
  · obtain ⟨pre, t, post, w, hd, hc⟩ := hop h hne
    refine ⟨pre, t, post, w,
      ⟨hd.rest_eq, hd.place_eq, fun w => expression_error (hd.decided w)⟩, ?_⟩
    intro t us hstop
    obtain ⟨a, q, hread⟩ := hc t us trivial
    exact ⟨a, q, (expression_ok hread).trans (chain_stops hstop)⟩
  · obtain ⟨pre, t, post, w, hd, hc, -⟩ := hch h₂ hne
    -- the operand is read again, whatever the chain behind it is completed with
    obtain ⟨read, hrest, hprev, hreplay⟩ := operand_replays h₁ hd.ne_nil
    obtain ⟨p, us⟩ := c
    obtain ⟨q, us₁⟩ := c₁
    simp only at hrest hprev hreplay
    subst hrest hprev
    refine ⟨read ++ pre, t, post, w, hd.after read fun us' halt' _ herr => ?_, fun t us hstop => ?_⟩
    · rw [expression_ok (hreplay us'), herr]
    · obtain ⟨a, q, hread⟩ := hc t us hstop
      refine ⟨a, q, ?_⟩
      rw [List.append_assoc, expression_ok (hreplay _), hread]

theorem operandHaltSpec_zero : OperandHaltSpec 0 := by
  intro c halt h hne
  cases operandHalts h with
  | tooDeep hk => exact operandHaltSpec_tooDeep hk hne
  | missing hu hn hi hl => exact operandHaltSpec_missing hu hn hi hl (by simpa using hne)

/-- A group that is open is closed behind its expression. -/
theorem operand_closer {p q : Option Token} {l : Token} {us vs : List Token}
    (hl : l.kind = .leftParen)
    (h : expression room 0 ⟨some l, us⟩ = .ok (e, ⟨q, closer :: vs⟩)) :
    operand (room + 1) ⟨p, l :: us⟩ = .ok (e, ⟨some closer, vs⟩) := by
  have hgroup : operand (room + 1) ⟨p, l :: us⟩ = _ := operand_group hl
  rw [hgroup, Cursor.advance_cons, h]
  rfl

theorem operandHaltSpec_unclosed {e : Expr} (hk : c.kind = .leftParen)
    (h : expression room 0 c.advance = .ok (e, c')) (hk' : c'.kind ≠ .rightParen)
    (hne : c'.rest ≠ []) :
    HaltsAtFirstError (operand (room + 1)) c (c'.unexpected (.token .rightParen))
      fun _ => True := by
  obtain ⟨p, l, us, rfl⟩ := Cursor.exists_cons_of_suffix
    ((suffix_of_expression h).trans c.advance_rest_suffix) hne
  obtain ⟨q, t, post, rfl⟩ := Cursor.exists_cons_of_suffix List.suffix_rfl hne
  obtain ⟨pre, hrest, hprev, hreplay⟩ := expression_replays (Nat.zero_le _) h hne
  simp only [Cursor.advance_cons] at hrest hprev hreplay
  subst hrest hprev
  refine ⟨l :: pre, t, post, [closer], ⟨rfl, by simp, fun w => ?_⟩, fun t us _ => ?_⟩
  · have hgroup : operand (room + 1) ⟨p, l :: (pre ++ t :: w)⟩ = _ := operand_group hk
    have hunclosed : Cursor.expect ⟨Cursor.behind (some l) pre, t :: w⟩ .rightParen = _ :=
      Cursor.expect_of_kind_ne hk'
    rw [List.cons_append, hgroup, Cursor.advance_cons, hreplay t w (stops_of_expression h)]
    simp only [Except.bind, hunclosed, Except.map, Cursor.behind_cons]
    rw [Cursor.unexpected_eq, Cursor.unexpected_cons _ t w post]
  · exact ⟨e, some closer, operand_closer hk (hreplay closer (t :: us) (stops_closer 0))⟩

theorem operandHaltSpec_succ (hop : OperandHaltSpec room) (hch : ChainHaltSpec room) :
    OperandHaltSpec (room + 1) := by
  intro c halt h hne
  cases operandHalts h with
  | missing hu hn hi hl => exact operandHaltSpec_missing hu hn hi hl (by simpa using hne)
  | @sign _ _ op _ hk h₁ =>
    obtain ⟨pre, t, post, w, hd, hc⟩ := hop h₁ hne
    obtain ⟨p, s, us, rfl⟩ := Cursor.exists_cons_of_suffix c.advance_rest_suffix hd.ne_nil
    have hstep : ∀ us, operand (room + 1) ⟨p, s :: us⟩ =
        (operand room ⟨some s, us⟩).map fun r => (.unary op r.1, r.2) := fun us => operand_sign hk
    refine ⟨s :: pre, t, post, w, hd.after [s] fun us' halt' _ herr => ?_, fun t us htrue => ?_⟩
    · rw [List.singleton_append, hstep, show operand room ⟨some s, us'⟩ = _ from herr]
      rfl
    · obtain ⟨a, q, hread⟩ := hc t us htrue
      refine ⟨.unary op a, q, ?_⟩
      rw [List.cons_append, hstep,
        show operand room ⟨some s, pre ++ (w ++ t :: us)⟩ = _ from hread]
      rfl
  | group hk h₁ =>
    obtain ⟨pre, t, post, w, hd, hc⟩ := expression_halt_of hop hch h₁ hne
    obtain ⟨p, l, us, rfl⟩ := Cursor.exists_cons_of_suffix c.advance_rest_suffix hd.ne_nil
    refine ⟨l :: pre, t, post, w ++ [closer], hd.after [l] fun us' halt' _ herr => ?_,
      fun t us _ => ?_⟩
    · have hgroup : operand (room + 1) ⟨p, l :: us'⟩ = _ := operand_group hk
      rw [List.singleton_append, hgroup, Cursor.advance_cons,
        show expression room 0 ⟨some l, us'⟩ = _ from herr]
      rfl
    · obtain ⟨a, q, hread⟩ := hc closer (t :: us) (stops_closer 0)
      refine ⟨a, some closer, ?_⟩
      rw [List.append_assoc]
      exact operand_closer hk hread
  | unclosed hk h₁ hk' => exact operandHaltSpec_unclosed hk h₁ hk' (by simpa using hne)

theorem chainHaltSpec_tooDeep {op : BinaryOp} (hk : c.kind.binaryOp? = some op)
    (hle : least ≤ op.precedence) (hne : c.rest ≠ []) :
    ChainHaltsAtFirstError 0 least left c c.tooDeep := by
  obtain ⟨p, t, us, rfl⟩ := Cursor.exists_cons_of_suffix List.suffix_rfl hne
  refine ⟨[], t, us, [], ⟨rfl, rfl, fun w => chain_tooDeep hk hle⟩, fun t us hstop => ?_,
    fun _ => rfl⟩
  exact ⟨left, p, chain_stops hstop⟩

theorem chainHaltSpec_zero : ChainHaltSpec 0 := by
  intro least left c halt h hne
  cases chainHalts h with
  | tooDeep hk hle => exact chainHaltSpec_tooDeep hk hle hne

/-- The right operand of the first operator is wrong. -/
theorem chainHaltSpec_right {op : BinaryOp} (hop : OperandHaltSpec room) (hch : ChainHaltSpec room)
    (hk : c.kind.binaryOp? = some op) (hle : least ≤ op.precedence)
    (h : expression room (op.precedence + 1) c.advance = .error halt)
    (hne : halt.place.rest ≠ []) : ChainHaltsAtFirstError (room + 1) least left c halt := by
  obtain ⟨pre, t, post, w, hd, hc⟩ := expression_halt_of hop hch h hne
  obtain ⟨p, o, us, rfl⟩ := Cursor.exists_cons_of_suffix c.advance_rest_suffix hd.ne_nil
  have hstep : ∀ us, chain (room + 1) least left ⟨p, o :: us⟩ =
      (expression room (op.precedence + 1) ⟨some o, us⟩).bind fun r =>
        chain room least (.binary op left r.1) r.2 := fun us => chain_step hk hle
  refine ⟨o :: pre, t, post, w, hd.after [o] fun us' halt' _ herr => ?_, fun t us hstop => ?_,
    fun hnil => by cases hnil⟩
  · rw [List.singleton_append, hstep,
      show expression room (op.precedence + 1) ⟨some o, us'⟩ = _ from herr]
    rfl
  · obtain ⟨a, q, hread⟩ := hc t us (hstop.mono (by omega))
    refine ⟨.binary op left a, q, ?_⟩
    rw [List.cons_append, hstep,
      show expression room (op.precedence + 1) ⟨some o, pre ++ (w ++ t :: us)⟩ = _ from hread]
    exact chain_stops hstop

/-- A chain moves past an operator and a right operand that is read again in front of `s`. -/
theorem chain_step_replay {op : BinaryOp} {p : Option Token} {o s : Token} {read us : List Token}
    {right : Expr} (hk : o.kind.binaryOp? = some op) (hle : least ≤ op.precedence)
    (hread : expression room (op.precedence + 1) ⟨some o, read ++ s :: us⟩ =
      .ok (right, ⟨Cursor.behind (some o) read, s :: us⟩)) :
    chain (room + 1) least left ⟨p, o :: (read ++ s :: us)⟩ =
      chain room least (.binary op left right) ⟨Cursor.behind (some o) read, s :: us⟩ := by
  have hchain : chain (room + 1) least left ⟨p, o :: (read ++ s :: us)⟩ = _ := chain_step hk hle
  rw [hchain, Cursor.advance_cons, hread]
  rfl

/-- The chain is wrong behind its first operator and the right operand of that. -/
theorem chainHaltSpec_step {op : BinaryOp} {right : Expr} (hch : ChainHaltSpec room)
    (hk : c.kind.binaryOp? = some op) (hle : least ≤ op.precedence)
    (h₁ : expression room (op.precedence + 1) c.advance = .ok (right, c'))
    (h₂ : chain room least (.binary op left right) c' = .error halt)
    (hne : halt.place.rest ≠ []) : ChainHaltsAtFirstError (room + 1) least left c halt := by
  obtain ⟨pre, t, post, w, hd, hc, hnil⟩ := hch h₂ hne
  obtain ⟨p, o, us, rfl⟩ := Cursor.exists_cons_of_suffix
    ((suffix_of_expression h₁).trans c.advance_rest_suffix) hd.ne_nil
  obtain ⟨read, hrest, hprev, hreplay⟩ := expression_replays op.precedence_lt_unary h₁ hd.ne_nil
  obtain ⟨q, us₁⟩ := c'
  simp only [Cursor.advance_cons] at hrest hprev hreplay
  subst hrest hprev
  have hstop₁ := stops_of_expression h₁
  refine ⟨o :: read ++ pre, t, post, w, hd.after (o :: read) fun us' halt' hhead herr => ?_,
    fun t us hstop => ?_, fun hnil => by cases hnil⟩
  · obtain ⟨s, us₁, rfl⟩ := List.exists_cons_of_ne_nil hd.ne_nil
    obtain ⟨us', rfl⟩ : ∃ us, us' = s :: us := by
      cases us' with
      | nil => cases hhead
      | cons s' us => exact ⟨us, by cases hhead; rfl⟩
    exact (chain_step_replay hk hle (hreplay s us' hstop₁)).trans herr
  · obtain ⟨a, q, hread⟩ := hc t us hstop
    refine ⟨a, q, ?_⟩
    rw [List.cons_append, List.cons_append, List.append_assoc]
    -- behind the right operand stands the same token as before, or one that stops the whole chain
    cases pre with
    | nil =>
      rw [hnil rfl] at hread ⊢
      have hs : t.kind.Stops (op.precedence + 1) := hstop.mono (by omega)
      exact (chain_step_replay hk hle (hreplay t us hs)).trans hread
    | cons s pre =>
      have hs : s.kind.Stops (op.precedence + 1) := by
        rw [show us₁ = s :: (pre ++ _ :: post) from hd.rest_eq] at hstop₁
        exact hstop₁
      exact (chain_step_replay hk hle (hreplay s _ hs)).trans hread

theorem chainHaltSpec_succ (hop : OperandHaltSpec room) (hch : ChainHaltSpec room) :
    ChainHaltSpec (room + 1) := by
  intro least left c halt h hne
  cases chainHalts h with
  | right hk hle h₁ => exact chainHaltSpec_right hop hch hk hle h₁ hne
  | step hk hle h₁ h₂ => exact chainHaltSpec_step hch hk hle h₁ h₂ hne

theorem operand_chain_haltSpec (room : Nat) : OperandHaltSpec room ∧ ChainHaltSpec room := by
  induction room with
  | zero => exact ⟨operandHaltSpec_zero, chainHaltSpec_zero⟩
  | succ room ih => exact ⟨operandHaltSpec_succ ih.1 ih.2, chainHaltSpec_succ ih.1 ih.2⟩

theorem expression_halt (h : expression room least c = .error halt) (hne : halt.place.rest ≠ []) :
    HaltsAtFirstError (expression room least) c halt (·.Stops least) :=
  expression_halt_of (operand_chain_haltSpec room).1 (operand_chain_haltSpec room).2 h hne

/-! ## Assignments and statements -/

/-- A token of this kind ends an assignment. -/
def EndsAssignment (k : Token.Kind) : Prop :=
  k.binaryOp? = none ∧ k ≠ .assign

/-- An expression in front of `=`, read with any room and again in front of other tokens. -/
theorem expression_before_assign (h : expression room 0 c = .ok (e, c')) (hk : c'.kind = .assign)
    (hne : c'.rest ≠ []) :
    ∃ p pre t post, c = ⟨p, pre ++ t :: post⟩ ∧ c' = ⟨Cursor.behind p pre, t :: post⟩ ∧
      t.kind = .assign ∧ ∀ s us, s.kind.Stops 0 →
        expression room 0 ⟨p, pre ++ s :: us⟩ = .ok (e, ⟨Cursor.behind p pre, s :: us⟩) := by
  obtain ⟨pre, hrest, hprev, hreplay⟩ := expression_replays (Nat.zero_le _) h hne
  obtain ⟨q, t, post, rfl⟩ := Cursor.exists_cons_of_suffix List.suffix_rfl hne
  obtain ⟨p, us⟩ := c
  simp only at hrest hprev hreplay
  subst hrest hprev
  exact ⟨p, pre, t, post, rfl, rfl, hk, hreplay⟩

theorem stops_assign {t : Token} (ht : t.kind = .assign) : t.kind.Stops 0 :=
  Token.Kind.stops_of_binaryOp?_eq_none 0 (by rw [ht]; rfl)

/-- Without its `=` an assignment is a complete expression. -/
theorem completes_target {p : Option Token} {pre : List Token}
    (hreplay : ∀ s us, s.kind.Stops 0 →
      expression room 0 ⟨p, pre ++ s :: us⟩ = .ok (e, ⟨Cursor.behind p pre, s :: us⟩)) :
    Completes (assignment room) p pre [] EndsAssignment := by
  intro t us hstop
  refine ⟨e, Cursor.behind p pre, ?_⟩
  exact assignment_value (hreplay t us (Token.Kind.stops_of_binaryOp?_eq_none 0 hstop.1)) hstop.2

theorem assignment_halt_expression (h : expression room 0 c = .error halt)
    (hne : halt.place.rest ≠ []) :
    HaltsAtFirstError (assignment room) c halt EndsAssignment := by
  obtain ⟨pre, t, post, w, hd, hc⟩ := expression_halt h hne
  refine ⟨pre, t, post, w,
    ⟨hd.rest_eq, hd.place_eq, fun w => assignment_error (hd.decided w)⟩, fun t us hstop => ?_⟩
  obtain ⟨a, q, hread⟩ := hc t us (Token.Kind.stops_of_binaryOp?_eq_none 0 hstop.1)
  exact ⟨a, q, assignment_value hread hstop.2⟩

/-- The label of an invalid target covers tokens that have been read. -/
theorem assignment_halt_target (h : expression room 0 c = .ok (e, c')) (hk : c'.kind = .assign)
    (he : ∀ name, e ≠ .var name) (hne : c'.rest ≠ []) :
    HaltsAtFirstError (assignment room) c
      ⟨.invalidTarget (.cover c.current.span c'.previousSpan), c'⟩ EndsAssignment := by
  obtain ⟨p, pre, t, post, rfl, rfl, ht, hreplay⟩ := expression_before_assign h hk hne
  refine ⟨pre, t, post, [], ⟨rfl, rfl, fun w => ?_⟩, completes_target hreplay⟩
  rw [assignment_target (hreplay t w (stops_assign ht)) ht he, Cursor.current_append p pre t w post]
  rfl

theorem assignment_halt_tooDeep {name : String} (h : expression 0 0 c = .ok (.var name, c'))
    (hk : c'.kind = .assign) (hne : c'.rest ≠ []) :
    HaltsAtFirstError (assignment 0) c c'.tooDeep EndsAssignment := by
  obtain ⟨p, pre, t, post, rfl, rfl, ht, hreplay⟩ := expression_before_assign h hk hne
  refine ⟨pre, t, post, [], ⟨rfl, rfl, fun w => ?_⟩, completes_target hreplay⟩
  exact assignment_tooDeep (hreplay t w (stops_assign ht)) ht

/-- The value behind `=` is wrong. -/
theorem assignment_halt_step {name : String}
    (h : expression (room + 1) 0 c = .ok (.var name, c')) (hk : c'.kind = .assign)
    (hvalue : HaltsAtFirstError (assignment room) c'.advance halt EndsAssignment) :
    HaltsAtFirstError (assignment (room + 1)) c halt EndsAssignment := by
  obtain ⟨pre, t, post, w, hd, hc⟩ := hvalue
  obtain ⟨p, read, s, us, rfl, rfl, hs, hreplay⟩ := expression_before_assign h hk
    (List.IsSuffix.ne_nil c'.advance_rest_suffix hd.ne_nil)
  have hstep : ∀ us, assignment (room + 1) ⟨p, read ++ s :: us⟩ =
      (assignment room ⟨some s, us⟩).map fun r => (.assign name r.1, r.2) :=
    fun us => assignment_step (hreplay s us (stops_assign hs)) hs
  -- the value starts behind the target and its `=`
  have hread : Cursor.behind p (read ++ [s]) = some s := by simp
  rw [Cursor.advance_cons, ← hread] at hd
  have hd' : Decides (assignment (room + 1)) ⟨p, (read ++ [s]) ++ us⟩ halt ((read ++ [s]) ++ pre)
      t post := by
    refine hd.after (read ++ [s]) fun us' halt' _ herr => ?_
    rw [hread] at herr
    rw [List.append_assoc, List.singleton_append, hstep, herr]
    rfl
  simp only [List.append_assoc, List.singleton_append] at hd'
  refine ⟨read ++ s :: pre, t, post, w, hd', fun t us hstop => ?_⟩
  obtain ⟨a, q, hvalue⟩ := hc t us hstop
  refine ⟨.assign name a, q, ?_⟩
  rw [List.append_assoc, List.cons_append, hstep,
    show assignment room ⟨some s, pre ++ (w ++ t :: us)⟩ = _ from hvalue]
  rfl

theorem assignment_halt (h : assignment room c = .error halt) (hne : halt.place.rest ≠ []) :
    HaltsAtFirstError (assignment room) c halt EndsAssignment := by
  induction room generalizing c with
  | zero =>
    cases assignmentHalts h with
    | expression h₁ => exact assignment_halt_expression h₁ hne
    | target h₁ hk he => exact assignment_halt_target h₁ hk he hne
    | tooDeep h₁ hk => exact assignment_halt_tooDeep h₁ hk hne
  | succ room ih =>
    cases assignmentHalts h with
    | expression h₁ => exact assignment_halt_expression h₁ hne
    | target h₁ hk he => exact assignment_halt_target h₁ hk he hne
    | step h₁ hk h₂ => exact assignment_halt_step h₁ hk (ih h₂)

theorem kind_ne_render_of_assignment (h : assignment room c = .ok (e, c')) :
    c.kind ≠ .render := by
  intro hk
  have hmissing : operand room c = _ := operand_missing (by rw [hk]; rfl) (by simp [hk])
    (by simp [hk]) (by simp [hk])
  rw [assignment_error (expression_error hmissing)] at h
  cases h

theorem endsAssignment_closer : EndsAssignment closer.kind :=
  ⟨rfl, by decide⟩

theorem statement_closer {p q : Option Token} {k l : Token} {us vs : List Token}
    (hk : k.kind = .render) (hl : l.kind = .leftParen)
    (h : assignment room ⟨some l, us⟩ = .ok (e, ⟨q, closer :: vs⟩)) :
    statement room ⟨p, k :: l :: us⟩ = .ok (.render e, ⟨some closer, vs⟩) := by
  have hrender : statement room ⟨p, k :: l :: us⟩ = _ := statement_render hk hl
  rw [hrender, Cursor.advance_cons, Cursor.advance_cons, h]
  rfl

theorem assignment_filler (room : Nat) (p : Option Token) {t : Token} (us : List Token)
    (ht : EndsAssignment t.kind) :
    assignment room ⟨p, filler :: t :: us⟩ = .ok (.number 0, ⟨some filler, t :: us⟩) := by
  have hstop := Token.Kind.stops_of_binaryOp?_eq_none 0 ht.1
  have hexpr : expression room 0 ⟨p, filler :: t :: us⟩ = .ok (.number 0, ⟨some filler, t :: us⟩) :=
    (expression_ok (operand_filler room p (t :: us))).trans (chain_stops hstop)
  exact assignment_value hexpr ht.2

theorem statement_halt_unopened (hk : c.kind = .render) (hl : c.advance.kind ≠ .leftParen)
    (hne : c.advance.rest ≠ []) :
    HaltsAtFirstError (statement room) c (c.advance.unexpected (.token .leftParen))
      (· = .eof) := by
  obtain ⟨p, k, us, rfl⟩ := Cursor.exists_cons_of_suffix c.advance_rest_suffix hne
  obtain ⟨t, us, rfl⟩ := List.exists_cons_of_ne_nil hne
  refine ⟨[k], t, us, [opener, filler, closer], ⟨rfl, by simp, fun w => ?_⟩, fun t us _ => ?_⟩
  · have hunopened : statement room ⟨p, k :: t :: w⟩ = _ := statement_unopened hk hl
    rw [List.singleton_append, hunopened, Cursor.advance_cons, Cursor.unexpected_eq,
      Cursor.unexpected_cons (some k) t w us]
    rfl
  · exact ⟨_, _, statement_closer hk rfl (assignment_filler room _ (t :: us) endsAssignment_closer)⟩

/-- A drawing has its keyword and its parenthesis. -/
theorem exists_cons_cons_of_suffix {us : List Token} (h : us <:+ c.advance.advance.rest)
    (hne : us ≠ []) : ∃ p k l vs, c = ⟨p, k :: l :: vs⟩ := by
  have hsuf : us <:+ c.advance.rest := h.trans c.advance.advance_rest_suffix
  obtain ⟨p, _ | ⟨k, ws⟩⟩ := c
  · exact absurd (List.suffix_nil.mp h) hne
  · obtain ⟨l, vs, rfl⟩ := List.exists_cons_of_ne_nil (List.IsSuffix.ne_nil hsuf hne)
    exact ⟨p, k, l, vs, rfl⟩

theorem statement_halt_unclosed (hk : c.kind = .render) (hl : c.advance.kind = .leftParen)
    (h : assignment room c.advance.advance = .ok (e, c')) (hr : c'.kind ≠ .rightParen)
    (hne : c'.rest ≠ []) :
    HaltsAtFirstError (statement room) c (c'.unexpected (.token .rightParen)) (· = .eof) := by
  obtain ⟨p, k, l, vs, rfl⟩ := exists_cons_cons_of_suffix (suffix_of_assignment h) hne
  obtain ⟨q, t, post, rfl⟩ := Cursor.exists_cons_of_suffix List.suffix_rfl hne
  obtain ⟨pre, hrest, hprev, hreplay⟩ := assignment_replays h hne
  simp only [Cursor.advance_cons] at hrest hprev hreplay hl
  subst hrest hprev
  have hstop := stops_of_assignment h
  refine ⟨k :: l :: pre, t, post, [closer], ⟨rfl, by simp, fun w => ?_⟩, fun t us _ => ?_⟩
  · have hrender : statement room ⟨p, k :: l :: (pre ++ t :: w)⟩ = _ := statement_render hk hl
    have hunclosed : Cursor.expect ⟨Cursor.behind (some l) pre, t :: w⟩ .rightParen = _ :=
      Cursor.expect_of_kind_ne hr
    rw [List.cons_append, List.cons_append, hrender, Cursor.advance_cons, Cursor.advance_cons,
      hreplay t w hstop.1 hstop.2]
    simp only [Except.bind, hunclosed, Except.map, Cursor.behind_cons]
    rw [Cursor.unexpected_eq, Cursor.unexpected_cons _ t w post]
  · exact ⟨_, _, statement_closer hk hl (hreplay closer (t :: us) rfl (by decide))⟩

theorem statement_halt (h : statement room c = .error halt) (hne : halt.place.rest ≠ []) :
    HaltsAtFirstError (statement room) c halt (· = .eof) := by
  cases statementHalts h with
  | expr hk h₁ =>
    obtain ⟨pre, t, post, w, hd, hc⟩ := assignment_halt h₁ hne
    refine ⟨pre, t, post, w, ⟨hd.rest_eq, hd.place_eq, fun w => ?_⟩, fun t us hstop => ?_⟩
    · have hk' : Cursor.kind ⟨c.previous?, pre ++ t :: w⟩ ≠ .render := by
        rw [Cursor.kind, Cursor.current_append _ _ _ w post, ← hd.rest_eq]
        exact hk
      rw [statement_expr hk', hd.decided w]
      rfl
    · obtain ⟨a, q, hread⟩ := hc t us ⟨by rw [hstop]; rfl, by simp [hstop]⟩
      refine ⟨.expr a, q, ?_⟩
      rw [statement_expr (kind_ne_render_of_assignment hread), hread]
      rfl
  | unopened hk hl => exact statement_halt_unopened hk hl (by simpa using hne)
  | render hk hl h₁ =>
    obtain ⟨pre, t, post, w, hd, hc⟩ := assignment_halt h₁ hne
    obtain ⟨p, k, l, vs, rfl⟩ := exists_cons_cons_of_suffix List.suffix_rfl hd.ne_nil
    simp only [Cursor.advance_cons] at hl
    refine ⟨k :: l :: pre, t, post, w ++ [closer], hd.after [k, l] fun us' halt' _ herr => ?_,
      fun t us _ => ?_⟩
    · have hrender : statement room ⟨p, k :: l :: us'⟩ = _ := statement_render hk hl
      rw [List.cons_append, List.singleton_append, hrender, Cursor.advance_cons,
        Cursor.advance_cons, show assignment room ⟨some l, us'⟩ = _ from herr]
      rfl
    · obtain ⟨a, q, hread⟩ := hc closer (t :: us) endsAssignment_closer
      refine ⟨.render a, some closer, ?_⟩
      rw [List.append_assoc]
      exact statement_closer hk hl hread
  | unclosed hk hl h₁ hr => exact statement_halt_unclosed hk hl h₁ hr (by simpa using hne)

/-- What is read as a statement is so again in front of the same token and in front of an end
mark. -/
theorem statement_replays {s : Stmt} (h : statement room c = .ok (s, c')) (hne : c'.rest ≠ []) :
    ∃ pre, c.rest = pre ++ c'.rest ∧ c'.previous? = Cursor.behind c.previous? pre ∧
      ∀ t w, t.kind = c'.kind ∨ t.kind = .eof →
        statement room ⟨c.previous?, pre ++ t :: w⟩ =
          .ok (s, ⟨Cursor.behind c.previous? pre, t :: w⟩) := by
  cases statementReads h with
  | expr hk h₁ =>
    obtain ⟨pre, hrest, hprev, hreplay⟩ := assignment_replays h₁ hne
    refine ⟨pre, hrest, hprev, fun t w ht => ?_⟩
    have hstop : t.kind.binaryOp? = none ∧ t.kind ≠ .assign := by
      rcases ht with ht | ht
      · rw [ht]
        exact stops_of_assignment h₁
      · rw [ht]
        exact ⟨rfl, by decide⟩
    have hread := hreplay t w hstop.1 hstop.2
    rw [statement_expr (kind_ne_render_of_assignment hread), hread]
    rfl
  | @render c₁ e hk hl h₁ hr =>
    obtain ⟨q, r, vs, rfl⟩ := Cursor.exists_cons_of_suffix c₁.advance_rest_suffix hne
    obtain ⟨p, k, l, ws, rfl⟩ :=
      exists_cons_cons_of_suffix (suffix_of_assignment h₁) (List.cons_ne_nil r vs)
    obtain ⟨pre, hrest, hprev, hreplay⟩ := assignment_replays h₁ (List.cons_ne_nil r vs)
    simp only [Cursor.advance_cons] at hrest hprev hreplay hl ⊢
    subst hrest
    refine ⟨k :: l :: (pre ++ [r]), by simp, by simp, fun t w _ => ?_⟩
    have hrender : statement room ⟨p, k :: l :: (pre ++ r :: t :: w)⟩ = _ := statement_render hk hl
    have hstop := stops_of_assignment h₁
    have hclosed : Cursor.expect ⟨Cursor.behind (some l) pre, r :: t :: w⟩ .rightParen = _ :=
      Cursor.expect_of_kind hr
    have hread := hreplay r (t :: w) hstop.1 hstop.2
    simp only [List.cons_append, List.append_assoc, List.nil_append]
    rw [hrender, Cursor.advance_cons, Cursor.advance_cons, hread]
    simp [Except.bind, hclosed, Except.map]

end Parse

/-! ## Statements up to the end mark -/

namespace Stmt

theorem read_of_statement_error {tokens : List Token} {halt : Halt}
    (h : Parse.statement maxNesting (.start tokens) = .error halt) :
    Stmt.read tokens = .error halt := by
  simp [Stmt.read, h, bind, Except.bind]

theorem read_trailing {tokens : List Token} {s : Stmt} {c : Cursor}
    (h : Parse.statement maxNesting (.start tokens) = .ok (s, c)) (hk : c.kind ≠ .eof) :
    Stmt.read tokens = .error ⟨.trailingTokens c.kind c.current.span, c⟩ := by
  simp [Stmt.read, h, hk, bind, Except.bind]

theorem read_eq_error {tokens : List Token} {halt : Halt} (h : Stmt.read tokens = .error halt) :
    Parse.statement maxNesting (.start tokens) = .error halt ∨
      ∃ s c, Parse.statement maxNesting (.start tokens) = .ok (s, c) ∧ c.kind ≠ .eof ∧
        halt = ⟨.trailingTokens c.kind c.current.span, c⟩ := by
  cases hr : Parse.statement maxNesting (.start tokens) with
  | error halt' =>
    rw [read_of_statement_error hr] at h
    cases h
    exact .inl rfl
  | ok r =>
    obtain ⟨s, c⟩ := r
    by_cases hk : c.kind = .eof
    · rw [read_eq_ok.mpr ⟨c, hr, hk⟩] at h
      cases h
    · rw [read_trailing hr hk] at h
      cases h
      exact .inr ⟨s, c, rfl, hk, rfl⟩

/-- The reader never moves past an end mark, so it halts in front of the last one at the latest. -/
theorem rest_ne_nil_of_read_error {tokens : List Token} {halt : Halt}
    (hend : ∃ t ∈ tokens, t.kind = .eof) (h : Stmt.read tokens = .error halt) :
    halt.place.rest ≠ [] := by
  have hI : ∀ c : Cursor, c.kind ≠ .eof → (∃ t ∈ c.rest, t.kind = .eof) →
      ∃ t ∈ c.advance.rest, t.kind = .eof := by
    rintro ⟨p, _ | ⟨s, us⟩⟩ hk ⟨t, ht, hteof⟩
    · cases ht
    · rcases List.mem_cons.mp ht with rfl | ht
      · exact absurd hteof hk
      · exact ⟨t, ht, hteof⟩
  have hends := Parse.ends_statement hI maxNesting (c := .start tokens) hend
  have hplace : ∃ t ∈ halt.place.rest, t.kind = .eof := by
    rcases read_eq_error h with hs | ⟨s, c, hs, -, rfl⟩
    · exact Parse.holds_of_error (I := fun c => ∃ t ∈ c.rest, t.kind = .eof) hs hends
    · exact Parse.holds_of_ok (I := fun c => ∃ t ∈ c.rest, t.kind = .eof) hs hends
  obtain ⟨t, ht, -⟩ := hplace
  exact List.ne_nil_of_mem ht

/-- A failed reading splits its tokens where it halts: what was read can be completed, and the error
stays whatever follows the token in sight. -/
theorem read_halt {tokens : List Token} {halt : Halt} (h : Stmt.read tokens = .error halt)
    (hne : halt.place.rest ≠ []) :
    ∃ pre t post, tokens = pre ++ t :: post ∧ halt.place.rest = t :: post ∧
      (∃ w, ∀ e : Token, e.kind = .eof → ∃ s, Stmt.read (pre ++ (w ++ [e])) = .ok s) ∧
      ∀ w, ∃ place, Stmt.read (pre ++ t :: w) = .error ⟨halt.error, place⟩ := by
  rcases read_eq_error h with hs | ⟨s, c, hs, hk, rfl⟩
  · obtain ⟨pre, t, post, w, hd, hc⟩ := Parse.statement_halt hs hne
    refine ⟨pre, t, post, hd.rest_eq, by rw [hd.place_eq], ⟨w, fun e he => ?_⟩, fun w => ?_⟩
    · obtain ⟨s, q, hread⟩ := hc e [] he
      exact ⟨s, read_eq_ok.mpr ⟨_, hread, he⟩⟩
    · exact ⟨_, read_of_statement_error (hd.decided w)⟩
  · obtain ⟨pre, hrest, hprev, hreplay⟩ := Parse.statement_replays hs hne
    obtain ⟨q, t, post, rfl⟩ := Cursor.exists_cons_of_suffix List.suffix_rfl hne
    refine ⟨pre, t, post, hrest, rfl, ⟨[], fun e he => ?_⟩, fun w => ?_⟩
    · exact ⟨s, read_eq_ok.mpr ⟨_, hreplay e [] (.inr he), he⟩⟩
    · have htrailing := read_trailing (hreplay t w (.inl rfl)) hk
      exact ⟨_, htrailing⟩

theorem ofTokens_eq_error {tokens : List Token} {err : ParseError} :
    Stmt.ofTokens tokens = .error err ↔ ∃ place, Stmt.read tokens = .error ⟨err, place⟩ := by
  unfold Stmt.ofTokens
  cases Stmt.read tokens with
  | ok s =>
    constructor
    · nofun
    · rintro ⟨place, ⟨⟩⟩
  | error halt =>
    constructor
    · rintro ⟨⟩
      exact ⟨halt.place, rfl⟩
    · rintro ⟨place, ⟨⟩⟩
      rfl

end Stmt

/-- **Errors have the correct-prefix property.** If a list with an end mark is refused while token
`i` is in sight, then the tokens before it can be completed to a statement that is accepted, and
every list with the same first `i + 1` tokens is refused with the same error. -/
theorem ofTokens_error_decided (ts : List Token) (hend : ∃ t ∈ ts, t.kind = .eof) (err : ParseError)
    (h : Stmt.ofTokens ts = .error err) :
    ∃ place i, Stmt.read ts = .error ⟨err, place⟩ ∧ place.rest = ts.drop i ∧ i < ts.length ∧
      (∃ w, ∀ e : Token, e.kind = .eof → ∃ s, Stmt.ofTokens (ts.take i ++ w ++ [e]) = .ok s) ∧
      ∀ w, Stmt.ofTokens (ts.take (i + 1) ++ w) = .error err := by
  obtain ⟨place, hread⟩ := Stmt.ofTokens_eq_error.mp h
  have hne := Stmt.rest_ne_nil_of_read_error hend hread
  obtain ⟨pre, t, post, rfl, hplace, ⟨w, hviable⟩, hdecided⟩ := Stmt.read_halt hread hne
  refine ⟨place, pre.length, hread, by simpa using hplace, by simp, ⟨w, fun e he => ?_⟩,
    fun w => ?_⟩
  · obtain ⟨s, hs⟩ := hviable e he
    refine ⟨s, Stmt.ofTokens_eq_ok.mpr ?_⟩
    simpa using hs
  · rw [List.take_length_add_append]
    simpa using Stmt.ofTokens_eq_error.mpr (hdecided w)

/-- `render(x=1+y=2)` -/
def assignedSum : List Token :=
  [⟨.render, ⟨0, 6⟩, "render", none⟩, ⟨.leftParen, ⟨6, 7⟩, "(", none⟩,
    ⟨.identifier, ⟨7, 8⟩, "x", none⟩, ⟨.assign, ⟨8, 9⟩, "=", none⟩,
    ⟨.number, ⟨9, 10⟩, "1", some 1⟩, ⟨.plus, ⟨10, 11⟩, "+", none⟩,
    ⟨.identifier, ⟨11, 12⟩, "y", none⟩, ⟨.assign, ⟨12, 13⟩, "=", none⟩,
    ⟨.number, ⟨13, 14⟩, "2", some 2⟩, ⟨.rightParen, ⟨14, 15⟩, ")", none⟩, Token.endAt 15]

/-- The second `=` is in sight when the sum is refused as a target. -/
theorem read_assignedSum :
    Stmt.read assignedSum =
      .error ⟨.invalidTarget ⟨9, 12⟩, ⟨assignedSum[6]?, assignedSum.drop 7⟩⟩ := by
  cbv

theorem ofTokens_error_decided_assignedSum :
    (∃ t ∈ assignedSum, t.kind = .eof) ∧
      Stmt.ofTokens assignedSum = .error (.invalidTarget ⟨9, 12⟩) ∧
      (∃ w, ∀ e : Token, e.kind = .eof →
        ∃ s, Stmt.ofTokens (assignedSum.take 7 ++ w ++ [e]) = .ok s) ∧
      ∀ w, Stmt.ofTokens (assignedSum.take 8 ++ w) = .error (.invalidTarget ⟨9, 12⟩) := by
  have hend : ∃ t ∈ assignedSum, t.kind = .eof := ⟨Token.endAt 15, by decide, rfl⟩
  have herror := Stmt.ofTokens_eq_error.mpr ⟨_, read_assignedSum⟩
  obtain ⟨place, i, hread, hrest, hi, hviable, hdecided⟩ :=
    ofTokens_error_decided assignedSum hend _ herror
  rw [read_assignedSum] at hread
  cases hread
  obtain rfl : i = 7 := by
    have := congrArg List.length hrest
    simp only [List.length_drop] at this
    have : assignedSum.length = 11 := rfl
    omega
  exact ⟨hend, herror, hviable, hdecided⟩

end Reckon
