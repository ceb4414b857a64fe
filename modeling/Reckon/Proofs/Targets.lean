import Reckon.Proofs.CorrectPrefix
import Reckon.Proofs.Printing
import Reckon.Proofs.Runs

/-!
# Invalid targets of assignments

What stands left of `=` is read as an expression, and then has to be a variable. So the reader
complains about a target exactly if a complete expression that is no variable stands in front of
`=`, at the level of assignments: at the start of a statement, or behind other targets which are
variables. Whatever follows that `=` is not looked at. Inside of an expression there is no such
complaint: there `=` is a token like any other that does not belong (`TokenFault`).

* `operand_chain_fault`, `expression_fault`: what can be wrong with an expression.
* `Misassigns`: the tokens with an invalid target, by the grammar.
* `Stmt.ofTokens_invalidTarget_iff`: the reader against it, with the place of the target.
-/

namespace Reckon

namespace Parse

variable {room least : Nat} {c c' : Cursor} {e left : Expr} {halt : Halt}

/-! ## Faults of expressions -/

/-- The fault is the token in sight: it does not belong there, or it opens a level too many. -/
inductive TokenFault : Halt → Prop where
  | unexpected (c : Cursor) (expected : Expected) : TokenFault (c.unexpected expected)
  | tooDeep {c : Cursor} (hk : c.kind ≠ .eof) : TokenFault c.tooDeep

theorem TokenFault.error_ne_invalidTarget (h : TokenFault halt) (span : Span) :
    halt.error ≠ .invalidTarget span := by
  cases h with
  | unexpected c expected =>
    unfold Cursor.unexpected
    split <;> nofun
  | tooDeep => nofun

theorem expression_fault_of (hop : ∀ {c halt}, operand room c = .error halt → TokenFault halt)
    (hch : ∀ {least left c halt}, chain room least left c = .error halt → TokenFault halt)
    (h : expression room least c = .error halt) : TokenFault halt := by
  rcases expression_eq_error h with h | ⟨first, c₁, -, h⟩
  · exact hop h
  · exact hch h

theorem operand_fault_succ (hop : ∀ {c halt}, operand room c = .error halt → TokenFault halt)
    (hex : ∀ {least c halt}, expression room least c = .error halt → TokenFault halt)
    (h : operand (room + 1) c = .error halt) : TokenFault halt := by
  cases operandHalts h with
  | missing => exact .unexpected _ _
  | sign _ h₁ => exact hop h₁
  | group _ h₁ => exact hex h₁
  | unclosed => exact .unexpected _ _

theorem chain_fault_succ
    (hch : ∀ {least left c halt}, chain room least left c = .error halt → TokenFault halt)
    (hex : ∀ {least c halt}, expression room least c = .error halt → TokenFault halt)
    (h : chain (room + 1) least left c = .error halt) : TokenFault halt := by
  cases chainHalts h with
  | right _ _ h₁ => exact hex h₁
  | step _ _ _ h₂ => exact hch h₂

theorem operand_chain_fault (room : Nat) :
    (∀ {c halt}, operand room c = .error halt → TokenFault halt) ∧
      ∀ {least left c halt}, chain room least left c = .error halt → TokenFault halt := by
  induction room with
  | zero =>
    refine ⟨fun h => ?_, fun h => ?_⟩
    · cases operandHalts h with
      | tooDeep hk =>
        refine .tooDeep ?_
        rcases hk with hk | ⟨op, hk⟩
        · simp [hk]
        · exact Token.Kind.ne_eof_of_unaryOp? hk
      | missing => exact .unexpected _ _
    · cases chainHalts h with
      | tooDeep hk => exact .tooDeep (Token.Kind.ne_eof_of_binaryOp? hk)
  | succ room ih =>
    have hex : ∀ {least c halt}, expression room least c = .error halt → TokenFault halt :=
      fun h => expression_fault_of ih.1 ih.2 h
    exact ⟨fun h => operand_fault_succ ih.1 hex h, fun h => chain_fault_succ ih.2 hex h⟩

/-- What can be wrong with an expression is a token. -/
theorem expression_fault (h : expression room least c = .error halt) : TokenFault halt :=
  expression_fault_of (operand_chain_fault room).1 (operand_chain_fault room).2 h

end Parse

/-! ## Targets -/

/-- A target of an assignment, with the `=` behind it. -/
structure Target where
  tokens : List Token
  sign : Token

namespace Target

def written (t : Target) : List Token :=
  t.tokens ++ [t.sign]

/-- The target is a variable, maybe in groups, which with `before` levels in use takes no more than
`limit` levels. -/
def Fits (t : Target) (before limit : Nat) : Prop :=
  t.sign.kind = .assign ∧
    ∃ name n k, Phrase Layer.additive t.tokens (.var name) n k ∧ before + k ≤ limit

end Target

/-- The tokens start with targets that are variables and then with `target`, which is none, in front
of `=`. Each of the targets before it takes a level for what stands behind. -/
def Misassigns (limit : Nat) (ts target : List Token) : Prop :=
  ∃ (targets : List Target) (sign : Token) (rest : List Token) (e : Expr) (n k : Nat),
    ts = targets.flatMap Target.written ++ (target ++ sign :: rest) ∧
    (∀ (i : Nat) (t : Target), targets[i]? = some t → t.Fits i limit) ∧
    Phrase Layer.additive target e n k ∧ (∀ name, e ≠ .var name) ∧ targets.length + k ≤ limit ∧
    sign.kind = .assign

/-- The range from the first of some tokens to the last one. -/
def Extent (ts : List Token) (span : Span) : Prop :=
  ∃ first last, ts.head? = some first ∧ ts.getLast? = some last ∧
    span = ⟨first.span.start, last.span.stop⟩

/-- What may stand in front of an assignment: nothing, or the keyword of drawings and `(`. -/
def Opening (front : List Token) : Prop :=
  front = [] ∨ ∃ k l : Token, front = [k, l] ∧ k.kind = .render ∧ l.kind = .leftParen

namespace Misassigns

variable {limit : Nat} {ts us target : List Token}

theorem here {e : Expr} {n k : Nat} (h : Phrase Layer.additive target e n k)
    (he : ∀ name, e ≠ .var name) (hk : k ≤ limit) {sign : Token} (hsign : sign.kind = .assign)
    (rest : List Token) : Misassigns limit (target ++ sign :: rest) target :=
  ⟨[], sign, rest, e, n, k, rfl, nofun, h, he, by simpa using hk, hsign⟩

theorem behind {name : String} {n k : Nat} (h : Phrase Layer.additive ts (.var name) n k)
    (hk : k ≤ limit + 1) {sign : Token} (hsign : sign.kind = .assign)
    (hus : Misassigns limit us target) : Misassigns (limit + 1) (ts ++ sign :: us) target := by
  obtain ⟨targets, sign', rest, e, m, d, rfl, htargets, htarget, he, hd, hsign'⟩ := hus
  refine ⟨⟨ts, sign⟩ :: targets, sign', rest, e, m, d, by simp [Target.written], ?_, htarget, he,
    by simp only [List.length_cons]; omega, hsign'⟩
  intro i t hi
  cases i with
  | zero =>
    cases hi
    exact ⟨hsign, name, n, k, h, by omega⟩
  | succ i =>
    obtain ⟨ht, name', n', k', hphrase, hle⟩ := htargets i t hi
    exact ⟨ht, name', n', k', hphrase, by omega⟩

/-- One step into the tokens: the invalid target stands at their front, or behind a first target. -/
theorem cases (h : Misassigns limit ts target) :
    (∃ sign rest e n k, ts = target ++ sign :: rest ∧ Phrase Layer.additive target e n k ∧
      (∀ name, e ≠ .var name) ∧ k ≤ limit ∧ sign.kind = .assign) ∨
    ∃ front sign us name n k limit', ts = front ++ sign :: us ∧ limit = limit' + 1 ∧
      Phrase Layer.additive front (.var name) n k ∧ k ≤ limit ∧ sign.kind = .assign ∧
      Misassigns limit' us target := by
  obtain ⟨targets, sign, rest, e, n, k, rfl, htargets, htarget, he, hk, hsign⟩ := h
  cases targets with
  | nil => exact .inl ⟨sign, rest, e, n, k, rfl, htarget, he, by simpa using hk, hsign⟩
  | cons t targets =>
    obtain ⟨ht, name, n', k', hphrase, hk'⟩ := htargets 0 t rfl
    simp only [List.length_cons] at hk
    refine .inr ⟨t.tokens, t.sign, targets.flatMap Target.written ++ (target ++ sign :: rest), name,
      n', k', limit - 1, by simp [Target.written], by omega, hphrase, by omega, ht, targets, sign,
      rest, e, n, k, rfl, ?_, htarget, he, by omega, hsign⟩
    intro i u hi
    obtain ⟨hu, name', n', k', hphrase', hle⟩ := htargets (i + 1) u hi
    exact ⟨hu, name', n', k', hphrase', by omega⟩

theorem ne_nil (h : Misassigns limit ts target) : ts ≠ [] := by
  obtain ⟨targets, sign, rest, e, n, k, rfl, -⟩ := h
  simp

/-- A statement with an invalid target does not start with the keyword of drawings. -/
theorem kind_ne_render (h : Misassigns limit ts target) (p : Option Token) :
    Cursor.kind ⟨p, ts⟩ ≠ .render := by
  have hfront : ∀ {front us e n k}, Phrase Layer.additive front e n k →
      Cursor.kind ⟨p, front ++ us⟩ ≠ .render := by
    intro front us e n k hphrase
    obtain ⟨t, more, rfl⟩ := List.exists_cons_of_ne_nil hphrase.ne_nil
    exact (hphrase.kind_ne t List.mem_cons_self).2
  rcases h.cases with ⟨_, _, _, _, _, rfl, hphrase, -⟩ | ⟨_, _, _, _, _, _, _, rfl, -, hphrase, -⟩
  · exact hfront hphrase
  · exact hfront hphrase

/-- An end mark behind the tokens makes no difference. -/
theorem append_eof_iff {e : Token} (he : e.kind = .eof) :
    Misassigns limit (ts ++ [e]) target ↔ Misassigns limit ts target := by
  constructor
  · rintro ⟨targets, sign, rest, e', n, k, heq, htargets, htarget, he', hk, hsign⟩
    rcases List.eq_nil_or_concat rest with rfl | ⟨rest, last, rfl⟩
    · -- the last token would be `=` and an end mark at once
      have hlast := congrArg List.getLast? heq
      simp only [← List.append_assoc, List.getLast?_concat, Option.some.injEq] at hlast
      rw [hlast, hsign] at he
      cases he
    · have hts : ts ++ [e] =
          (targets.flatMap Target.written ++ (target ++ sign :: rest)) ++ [last] := by
        simpa using heq
      exact ⟨targets, sign, rest, e', n, k, (List.append_inj' hts rfl).1, htargets, htarget, he',
        hk, hsign⟩
  · rintro ⟨targets, sign, rest, e', n, k, rfl, htargets, htarget, he', hk, hsign⟩
    exact ⟨targets, sign, rest ++ [e], e', n, k, by simp, htargets, htarget, he', hk, hsign⟩

end Misassigns

theorem Extent.unique {ts : List Token} {span span' : Span} (h : Extent ts span)
    (h' : Extent ts span') : span = span' := by
  obtain ⟨first, last, hfirst, hlast, rfl⟩ := h
  obtain ⟨first', last', hfirst', hlast', rfl⟩ := h'
  rw [hfirst] at hfirst'
  rw [hlast] at hlast'
  cases hfirst'
  cases hlast'
  rfl

/-! ## The reader -/

namespace Parse

variable {room : Nat} {c c' : Cursor} {e : Expr} {halt : Halt} {span : Span}
  {ts us target : List Token}

/-- From the token in sight before some tokens to the token read last behind them. -/
theorem extent_cover (hne : ts ≠ []) (p : Option Token) (rest rest' : List Token) :
    Extent ts
      (.cover (Cursor.current ⟨p, ts ++ rest⟩).span
        (Cursor.previousSpan ⟨Cursor.behind p ts, rest'⟩)) := by
  obtain ⟨first, more, hfirst⟩ := List.exists_cons_of_ne_nil hne
  rcases List.eq_nil_or_concat ts with hnil | ⟨init, last, hlast⟩
  · exact absurd hnil hne
  · have hcurrent : Cursor.current ⟨p, ts ++ rest⟩ = first := by rw [hfirst]; rfl
    have hbehind : Cursor.behind p ts = some last := by rw [hlast]; simp
    refine ⟨first, last, by rw [hfirst]; rfl, by rw [hlast]; simp, ?_⟩
    rw [hcurrent, hbehind]
    rfl

/-- The tokens of an expression that is read, with the token read last behind them. -/
theorem expression_derives (h : expression room 0 c = .ok (e, c')) (hne : c'.rest ≠ []) :
    ∃ ts n k, Phrase Layer.additive ts e n k ∧ k ≤ room ∧ c.rest = ts ++ c'.rest ∧
      c'.previous? = Cursor.behind c.previous? ts := by
  obtain ⟨ts, n, k, hts, hk, hrest⟩ := expression_sound h hne
  obtain ⟨pre, hpre, hprev, -⟩ := expression_replays (Nat.zero_le _) h hne
  obtain rfl : pre = ts := List.append_cancel_right (hpre.symm.trans hrest)
  exact ⟨pre, n, k, hts, hk, hrest, hprev⟩

/-- In front of `=` a target is read as an expression. -/
theorem expression_target {sign : Token} {n k : Nat} (h : Phrase Layer.additive ts e n k)
    (hk : k ≤ room) (hsign : sign.kind = .assign) (p : Option Token) (rest : List Token) :
    expression room 0 ⟨p, ts ++ sign :: rest⟩ = .ok (e, ⟨Cursor.behind p ts, sign :: rest⟩) := by
  have hkind : Cursor.kind ⟨Cursor.behind p ts, sign :: rest⟩ = .assign := hsign
  exact (expression_phrase h room p _ (by rw [hkind]; rfl)).1 hk

theorem assignment_of_target {sign : Token} {n k : Nat} (h : Phrase Layer.additive target e n k)
    (he : ∀ name, e ≠ .var name) (hk : k ≤ room) (hsign : sign.kind = .assign)
    (hspan : Extent target span) (p : Option Token) (rest : List Token) :
    ∃ place, assignment room ⟨p, target ++ sign :: rest⟩ =
      .error ⟨.invalidTarget span, place⟩ := by
  have herror := assignment_target (expression_target h hk hsign p rest) hsign he
  rw [(extent_cover h.ne_nil p _ _).unique hspan] at herror
  exact ⟨_, herror⟩

theorem assignment_of_misassigns (h : Misassigns room us target) (hspan : Extent target span)
    (p : Option Token) :
    ∃ place, assignment room ⟨p, us⟩ = .error ⟨.invalidTarget span, place⟩ := by
  induction room generalizing us p with
  | zero =>
    rcases h.cases with ⟨sign, rest, e, n, k, rfl, htarget, he, hk, hsign⟩ |
      ⟨_, _, _, _, _, _, _, -, hlimit, -⟩
    · exact assignment_of_target htarget he hk hsign hspan p rest
    · cases hlimit
  | succ room ih =>
    rcases h.cases with ⟨sign, rest, e, n, k, rfl, htarget, he, hk, hsign⟩ |
      ⟨front, sign, us, name, n, k, limit, rfl, hlimit, hfront, hk, hsign, hus⟩
    · exact assignment_of_target htarget he hk hsign hspan p rest
    · obtain rfl : room = limit := Nat.succ.inj hlimit
      obtain ⟨place, hplace⟩ := ih hus (some sign)
      refine ⟨place, (assignment_step (expression_target hfront hk hsign p us) hsign).trans ?_⟩
      rw [Cursor.advance_cons, hplace]
      rfl

/-- An invalid target at the front, as it is read. -/
theorem misassigns_of_target (h : expression room 0 c = .ok (e, c')) (hk : c'.kind = .assign)
    (he : ∀ name, e ≠ .var name) (hne : c'.rest ≠ []) :
    ∃ target, Misassigns room c.rest target ∧
      Extent target (.cover c.current.span c'.previousSpan) := by
  obtain ⟨target, n, k, htarget, hle, hrest, hprev⟩ := expression_derives h hne
  obtain ⟨p, us⟩ := c
  obtain ⟨q, sign, post, rfl⟩ := Cursor.exists_cons_of_suffix List.suffix_rfl hne
  simp only at hrest hprev
  subst hrest hprev
  exact ⟨target, Misassigns.here htarget he hle hk post, extent_cover htarget.ne_nil p _ _⟩

theorem misassigns_of_assignment (h : assignment room c = .error halt)
    (herror : halt.error = .invalidTarget span) (hne : halt.place.rest ≠ []) :
    ∃ target, Misassigns room c.rest target ∧ Extent target span := by
  induction room generalizing c with
  | zero =>
    cases assignmentHalts h with
    | expression h₁ => exact absurd herror ((expression_fault h₁).error_ne_invalidTarget span)
    | target h₁ hk he =>
      cases herror
      exact misassigns_of_target h₁ hk he hne
    | tooDeep => cases herror
  | succ room ih =>
    cases assignmentHalts h with
    | expression h₁ => exact absurd herror ((expression_fault h₁).error_ne_invalidTarget span)
    | target h₁ hk he =>
      cases herror
      exact misassigns_of_target h₁ hk he hne
    | @step _ _ c₁ name _ h₁ hk h₂ =>
      obtain ⟨target, htarget, hspan⟩ := ih h₂
      have hne₁ : c₁.rest ≠ [] := List.IsSuffix.ne_nil c₁.advance_rest_suffix htarget.ne_nil
      obtain ⟨ts, n, k, hts, hle, hrest, -⟩ := expression_derives h₁ hne₁
      obtain ⟨q, sign, post, rfl⟩ := Cursor.exists_cons_of_suffix List.suffix_rfl hne₁
      refine ⟨target, ?_, hspan⟩
      rw [hrest]
      exact .behind hts hle hk htarget

theorem statement_of_misassigns {front : List Token} (hfront : Opening front)
    (h : Misassigns room us target) (hspan : Extent target span) (p : Option Token) :
    ∃ place, statement room ⟨p, front ++ us⟩ = .error ⟨.invalidTarget span, place⟩ := by
  rcases hfront with rfl | ⟨k, l, rfl, hk, hl⟩
  · obtain ⟨place, hplace⟩ := assignment_of_misassigns h hspan p
    refine ⟨place, (statement_expr (h.kind_ne_render p)).trans ?_⟩
    rw [hplace]
    rfl
  · obtain ⟨place, hplace⟩ := assignment_of_misassigns h hspan (some l)
    have hrender : statement room ⟨p, k :: l :: us⟩ = _ := statement_render hk hl
    refine ⟨place, hrender.trans ?_⟩
    rw [Cursor.advance_cons, Cursor.advance_cons, hplace]
    rfl

theorem misassigns_of_statement (h : statement room c = .error halt)
    (herror : halt.error = .invalidTarget span) (hne : halt.place.rest ≠ []) :
    ∃ front us target, c.rest = front ++ us ∧ Opening front ∧ Misassigns room us target ∧
      Extent target span := by
  cases statementHalts h with
  | expr _ h₁ =>
    obtain ⟨target, htarget, hspan⟩ := misassigns_of_assignment h₁ herror hne
    exact ⟨[], c.rest, target, rfl, .inl rfl, htarget, hspan⟩
  | unopened => exact absurd herror ((TokenFault.unexpected _ _).error_ne_invalidTarget span)
  | render hk hl h₁ =>
    obtain ⟨target, htarget, hspan⟩ := misassigns_of_assignment h₁ herror hne
    obtain ⟨p, k, l, us, rfl⟩ := exists_cons_cons_of_suffix List.suffix_rfl htarget.ne_nil
    exact ⟨[k, l], us, target, rfl, .inr ⟨k, l, rfl, hk, hl⟩, htarget, hspan⟩
  | unclosed => exact absurd herror ((TokenFault.unexpected _ _).error_ne_invalidTarget span)

end Parse

/-- The complaint about a target, by the grammar, for every list of tokens with an end mark. -/
theorem Stmt.ofTokens_invalidTarget_iff {tokens : List Token} {span : Span}
    (hend : ∃ t ∈ tokens, t.kind = .eof) :
    Stmt.ofTokens tokens = .error (.invalidTarget span) ↔
      ∃ front us target, tokens = front ++ us ∧ Opening front ∧ Misassigns maxNesting us target ∧
        Extent target span := by
  constructor
  · intro h
    obtain ⟨place, hread⟩ := Stmt.ofTokens_eq_error.mp h
    have hne := Stmt.rest_ne_nil_of_read_error hend hread
    rcases Stmt.read_eq_error hread with hs | ⟨s, c, -, -, hhalt⟩
    · exact Parse.misassigns_of_statement hs rfl hne
    · cases hhalt
  · rintro ⟨front, us, target, rfl, hfront, hus, hspan⟩
    obtain ⟨place, hplace⟩ := Parse.statement_of_misassigns hfront hus hspan none
    exact Stmt.ofTokens_eq_error.mpr ⟨place, Stmt.read_of_statement_error hplace⟩

theorem Token.kind_of_lex_append {source : String} {ts : List Token} {e : Token}
    (h : Token.lex source = .ok (ts ++ [e])) : e.kind = .eof := by
  obtain ⟨words, heq, -⟩ := Token.tokenization_of_lex h
  have hlast := (List.append_inj' heq rfl).2
  cases hlast
  rfl

theorem Stmt.parse_eq_parse_error {source : String} {tokens : List Token} {err : ParseError}
    (h : Token.lex source = .ok tokens) :
    Stmt.parse source = .error (.parse err) ↔ Stmt.ofTokens tokens = .error err := by
  rw [Stmt.parse_of_lex h]
  cases Stmt.ofTokens tokens with
  | ok s => exact ⟨nofun, nofun⟩
  | error err' =>
    constructor
    · rintro ⟨⟩
      rfl
    · rintro ⟨⟩
      rfl

/-- **A target is invalid exactly if it is a complete expression other than a variable.** The source
has the tokens `ts` and then its end mark. Reading it ends in a complaint about a target exactly if
`ts` starts, maybe behind `render (`, with targets that are variables, each in front of its `=` and
within the limit, and then with the tokens of an expression that is none, again in front of `=` and
within the limit; anything may follow. The label goes from the first to the last token of that
expression. -/
theorem parse_invalidTarget_iff (source : String) (ts : List Token) (e : Token)
    (h : Token.lex source = .ok (ts ++ [e])) (span : Span) :
    Stmt.parse source = .error (.parse (.invalidTarget span)) ↔
      ∃ front us target, ts = front ++ us ∧ Opening front ∧ Misassigns 512 us target ∧
        Extent target span := by
  have he := Token.kind_of_lex_append h
  rw [Stmt.parse_eq_parse_error h, Stmt.ofTokens_invalidTarget_iff ⟨e, by simp, he⟩]
  constructor
  · rintro ⟨front, us, target, heq, hfront, hus, hspan⟩
    rcases List.eq_nil_or_concat us with rfl | ⟨us, last, rfl⟩
    · exact absurd rfl hus.ne_nil
    · rw [List.concat_eq_append] at heq hus
      rw [← List.append_assoc] at heq
      obtain ⟨rfl, hlast⟩ := List.append_inj' heq rfl
      cases hlast
      exact ⟨front, us, target, rfl, hfront, (Misassigns.append_eof_iff he).mp hus, hspan⟩
  · rintro ⟨front, us, target, rfl, hfront, hus, hspan⟩
    exact ⟨front, us ++ [e], target, by simp, hfront, (Misassigns.append_eof_iff he).mpr hus, hspan⟩

/-- Behind the targets `(x)` and `y` stands `a+(1)`, and behind its `=` stands nothing that could be
read. -/
theorem parse_invalidTarget_sum :
    ∃ ts e, Token.lex "render((x)=y=a+(1)=)=" = .ok (ts ++ [e]) ∧
      Stmt.parse "render((x)=y=a+(1)=)=" = .error (.parse (.invalidTarget ⟨13, 18⟩)) := by
  have hlex : Token.lex "render((x)=y=a+(1)=)=" = .ok ([Token.word 0 "render".toList,
      Token.sign 6 .leftParen '(', Token.sign 7 .leftParen '(', Token.word 8 ['x'],
      Token.sign 9 .rightParen ')', Token.sign 10 .assign '=', Token.word 11 ['y'],
      Token.sign 12 .assign '=', Token.word 13 ['a'], Token.sign 14 .plus '+',
      Token.sign 15 .leftParen '(', Token.numeral 16 ['1'], Token.sign 17 .rightParen ')',
      Token.sign 18 .assign '=', Token.sign 19 .rightParen ')', Token.sign 20 .assign '='] ++
      [Token.endAt 21]) := toOption_eq_some.mp (by decide +kernel)
  refine ⟨_, _, hlex, (parse_invalidTarget_iff _ _ _ hlex _).mpr ?_⟩
  have name : ∀ (p offset : Nat) (c : Char), p ≤ Layer.primary → String.ofList [c] ≠ "render" →
      Phrase p [Token.word offset [c]] (.var (String.ofList [c])) 0 0 :=
    fun p offset c hp hc => (Phrase.name (if_neg hc)).loosen hp
  have group := Phrase.group (l := Token.sign 7 .leftParen '(') rfl
    (name Layer.additive 8 'x' (by decide) (by decide)) (r := Token.sign 9 .rightParen ')') rfl
  have one : Phrase Layer.additive [Token.numeral 16 ['1']] (.number 1) 0 0 :=
    (Phrase.number rfl).loosen (by decide)
  have sum := Phrase.binary (name Layer.additive 13 'a' (by decide) (by decide))
    (t := Token.sign 14 .plus '+') rfl rfl
    ((Phrase.group (l := Token.sign 15 .leftParen '(') rfl one
      (r := Token.sign 17 .rightParen ')') rfl).loosen (by decide))
  have hassign : ∀ offset, (Token.sign offset .assign '=').kind = .assign := fun _ => rfl
  have hsum : Misassigns 510 _ _ := .here sum nofun (by decide) (hassign 18)
    [Token.sign 19 .rightParen ')', Token.sign 20 .assign '=']
  have hname := hsum.behind (name Layer.additive 11 'y' (by decide) (by decide)) (by decide)
    (hassign 12)
  have hgroup := hname.behind (group.loosen (by decide)) (by decide) (hassign 10)
  exact ⟨[_, _], _, _, rfl, .inr ⟨_, _, rfl, by decide, rfl⟩, hgroup, _, _, rfl, rfl, rfl⟩

end Reckon
