import Reckon.Proofs.Reading
import Reckon.Proofs.Tokenization

/-!
# Printing and reading back

A statement is *source-shaped* if it can have come from a text: its literals are not negative, its
names are names of the language, and its assignments are a chain at the root. Such a statement is
printed with as few groups as possible, and the text reads back as the statement.

* `Token.Lexes`: the tokens of a part of a text, whatever follows the part.
* `Expr.spelled_chars`: the printed text of an expression spells it in the layer of its operator, at
  the cost `Expr.nesting`.
* `Clause.sourceShaped`: what is read from the tokens of a text is source-shaped.
* `parse_print_sourceShaped`: both directions for statements.
-/

namespace Reckon

/-! ## Tokens of a part of a text -/

namespace Token

/-- The tokens `ts` are read off the characters `cs`, whatever follows and does not go on with their
last word. -/
def Lexes (offset : Nat) (cs : List Char) (ts : List Token) : Prop :=
  ∀ rest : List Char, (∀ c, rest.head? = some c → ¬ NamePart c) →
    lexFrom offset (cs ++ rest) = (lexFrom (offset + byteLength cs) rest).map (ts ++ ·)

variable {offset : Nat} {cs ds : List Char} {ts us : List Token} {c : Char}

theorem map_append_map {x : Except LexError (List Token)} :
    (x.map (us ++ ·)).map (ts ++ ·) = x.map (ts ++ us ++ ·) := by
  cases x <;> simp [Except.map]

theorem lexes_nil : Lexes offset [] [] := by
  intro rest _
  cases h : lexFrom offset rest <;> simp [Except.map, h]

/-- The tokens of a part that is the whole text. -/
theorem Lexes.lexFrom_eq (h : Lexes offset cs ts) :
    lexFrom offset cs = .ok (ts ++ [endAt (offset + byteLength cs)]) := by
  have hwhole := h [] nofun
  rw [List.append_nil, lexFrom_nil] at hwhole
  exact hwhole

/-- Two parts can follow each other if no word runs over from one into the other. -/
theorem Lexes.append (h : Lexes offset cs ts) (h' : Lexes (offset + byteLength cs) ds us)
    (hbreak : ∀ c, ds.head? = some c → ¬ NamePart c) : Lexes offset (cs ++ ds) (ts ++ us) := by
  intro rest hrest
  have hhead : ∀ c, (ds ++ rest).head? = some c → ¬ NamePart c := by
    cases ds with
    | nil => exact hrest
    | cons d ds => exact hbreak
  rw [List.append_assoc, h (ds ++ rest) hhead, h' rest hrest, map_append_map, byteLength_append,
    Nat.add_assoc]

theorem Lexes.sign {k : Kind} (h : Lexes (offset + byteLength [c]) cs ts)
    (hc : Kind.ofSign? c = some k) : Lexes offset (c :: cs) (sign offset k c :: ts) := by
  intro rest hrest
  have htext : byteLength (Token.sign offset k c).text.toList = byteLength [c] := by
    simp [Token.sign]
  have hstep := (leads_sign offset (cs ++ rest) hc).lexFrom_eq
  rw [htext, h rest hrest] at hstep
  rw [List.cons_append, hstep, byteLength_cons c cs, byteLength_cons, byteLength_nil, Nat.add_zero,
    Nat.add_assoc]
  cases lexFrom (offset + (c.utf8Size + byteLength cs)) rest <;> rfl

theorem Lexes.separator (h : Lexes (offset + byteLength [c]) cs ts) (hc : Separator c) :
    Lexes offset (c :: cs) ts := by
  intro rest hrest
  rw [List.cons_append, lexFrom_separator hc, h rest hrest, byteLength_cons c cs, byteLength_cons,
    byteLength_nil, Nat.add_zero, Nat.add_assoc]

theorem Lexes.separators {gap : List Char} (h : Lexes (offset + byteLength gap) cs ts)
    (hgap : ∀ c ∈ gap, Separator c) : Lexes offset (gap ++ cs) ts := by
  induction gap generalizing offset with
  | nil => exact h
  | cons c gap ih =>
    refine Lexes.separator (ih ?_ fun d hd => hgap d (List.mem_cons_of_mem c hd))
      (hgap c List.mem_cons_self)
    simpa [Nat.add_assoc] using h

/-- A word or a numeral is read as a whole if no word goes on behind it. -/
theorem Formed.lexes {t : Token} (h : t.Formed) (htext : t.text.toList = cs)
    (hspan : t.span = ⟨offset, offset + cs.length⟩) : Lexes offset cs [t] := by
  subst htext
  intro rest hrest
  have hlead : Leads offset (t.text.toList ++ rest) t rest :=
    h.leads hspan fun c hc hcontinues => hrest c hc (namePart_of_continues hcontinues)
  exact hlead.lexFrom_eq

theorem not_namePart_of_ofSign? {k : Kind} (hc : Kind.ofSign? c = some k) : ¬ NamePart c := by
  intro hp
  rw [ofSign?_eq_none_of_namePart hp] at hc
  cases hc

theorem Separator.not_namePart (h : Separator c) : ¬ NamePart c := by
  intro hp
  have hsep := h.toNat
  rcases hp with hp | hp | rfl
  · have := hp.toNat
    omega
  · have := hp.toNat
    omega
  · simp at hsep

theorem lexes_sign (offset : Nat) {k : Kind} (hc : Kind.ofSign? c = some k) :
    Lexes offset [c] [sign offset k c] :=
  lexes_nil.sign hc

theorem kind_keyword (offset : Nat) : (word offset "render".toList).kind = .render := by
  rw [kind_word]
  exact if_pos String.ofList_toList

theorem lexes_keyword (offset : Nat) :
    Lexes offset "render".toList [word offset "render".toList] := by
  have hall : "ender".toList.all isNamePart = true := rfl
  have hparts : ∀ d ∈ "ender".toList, NamePart d := fun d hd =>
    isNamePart_iff.mp (List.all_eq_true.mp hall d hd)
  exact (formed_word offset (show NameStart 'r' by decide) hparts).lexes rfl rfl

/-- The end of a group can stand behind every part of a text. -/
theorem Lexes.closed (h : Lexes offset cs ts) :
    Lexes offset (cs ++ [')']) (ts ++ [Token.sign (offset + byteLength cs) .rightParen ')']) := by
  refine h.append (lexes_sign _ rfl) ?_
  intro c hc
  cases hc
  decide

/-- A sign with blanks on both sides joins two parts of a text. -/
theorem Lexes.joined {k : Kind} {gap : List Char} (h : Lexes offset cs ts)
    (hgap : ∀ c ∈ gap, Separator c) (hc : Kind.ofSign? c = some k)
    (h' : Lexes (offset + byteLength cs + byteLength gap + byteLength [c] + byteLength gap) ds us) :
    Lexes offset (cs ++ gap ++ [c] ++ gap ++ ds)
      (ts ++ Token.sign (offset + byteLength cs + byteLength gap) k c :: us) := by
  have hright := ((h'.separators hgap).sign hc).separators hgap
  have hwhole := h.append hright ?_
  · simpa using hwhole
  · cases gap with
    | nil =>
      intro x hx
      cases hx
      exact not_namePart_of_ofSign? hc
    | cons g gap =>
      intro x hx
      obtain rfl : g = x := Option.some.inj hx
      exact (hgap g List.mem_cons_self).not_namePart

end Token

/-! ## Source-shaped statements -/

/-- A name of the language: letters, digits and underscores, without a digit in front, and not the
keyword. -/
def IsName (name : String) : Prop :=
  (∃ c run, name.toList = c :: run ∧ Token.NameStart c ∧ ∀ d ∈ run, Token.NamePart d) ∧
    name ≠ "render"

namespace Expr

/-- No assignment, no negative literal, and names of the language only. -/
def Plain : Expr → Prop
  | number n => 0 ≤ n
  | var name => IsName name
  | unary _ operand => operand.Plain
  | binary _ left right => left.Plain ∧ right.Plain
  | assign _ _ => False

/-- A chain of assignments in front of a plain expression. -/
def SourceShaped : Expr → Prop
  | assign name value => IsName name ∧ value.SourceShaped
  | e => e.Plain

end Expr

def Stmt.SourceShaped (s : Stmt) : Prop :=
  s.body.SourceShaped

/-! ## The printer -/

/-- How tightly an operator holds its operands in a text. -/
def BinaryOp.level : BinaryOp → Nat
  | add | sub => Layer.additive
  | mul | div | mod => Layer.multiplicative
  | pow => Layer.power

namespace Expr

/-- The expression has an operator that binds less tightly than `least`. -/
def isLoose (least : Nat) : Expr → Bool
  | binary op _ _ => decide (op.level < least)
  | _ => false

/-- Characters in a group, if there has to be one. -/
def grouped (group : Bool) (cs : List Char) : List Char :=
  if group then '(' :: (cs ++ [')']) else cs

/-- The text of an expression. A group stands around a left operand that binds less tightly, a right
operand that does not bind more tightly, and an operand of a prefix sign that has an operator of its
own. The blanks `gap` stand on both sides of an operator or `=` between two operands. -/
def chars (gap : List Char) : Expr → List Char
  | number n => Decimal.chars n
  | var name => name.toList
  | unary op operand =>
    op.symbol.toList ++ grouped (operand.isLoose Layer.unary) (operand.chars gap)
  | binary op left right =>
    grouped (left.isLoose op.level) (left.chars gap) ++ gap ++ op.symbol.toList ++ gap ++
      grouped (right.isLoose (op.level + 1)) (right.chars gap)
  | assign name value => name.toList ++ gap ++ ['='] ++ gap ++ value.chars gap

end Expr

namespace Stmt

def chars (gap : List Char) : Stmt → List Char
  | expr e => e.chars gap
  | render e => "render".toList ++ '(' :: (e.chars gap ++ [')'])

/-- The text of a statement. -/
def print (gap : String) (s : Stmt) : String :=
  String.ofList (s.chars gap.toList)

end Stmt

/-! ## Nesting costs of printed texts -/

namespace Expr

/-- A group costs one level more than what it holds. -/
def groupedCost (group : Bool) (k : Nat) : Nat :=
  if group then 1 + k else k

/-- Operators in a group are not on the spine outside of it. -/
def groupedSpine (group : Bool) (n : Nat) : Nat :=
  if group then 0 else n

/-- The number of operators on the left spine of the printed text, outside of groups. -/
def spine : Expr → Nat
  | binary op left _ => groupedSpine (left.isLoose op.level) left.spine + 1
  | _ => 0

/-- The nesting cost of the printed text. -/
def nesting : Expr → Nat
  | number _ | var _ => 0
  | unary _ operand => 1 + groupedCost (operand.isLoose Layer.unary) operand.nesting
  | binary op left right =>
    max (groupedCost (left.isLoose op.level) left.nesting)
      (groupedSpine (left.isLoose op.level) left.spine + 1 +
        groupedCost (right.isLoose (op.level + 1)) right.nesting)
  | assign _ value => 1 + value.nesting

/-- The layer of the grammar to which the printed text belongs. -/
def layer : Expr → Nat
  | number _ | var _ => Layer.primary
  | unary _ _ => Layer.unary
  | binary op _ _ => op.level
  | assign _ _ => 0

end Expr

/-! ## Printed expressions -/

/-- The characters `cs` are the text of a phrase, wherever they stand. -/
def Spelled (p : Nat) (cs : List Char) (e : Expr) (n k : Nat) : Prop :=
  ∀ offset, ∃ ts, Phrase p ts e n k ∧ Token.Lexes offset cs ts

theorem BinaryOp.precedence_eq_level (op : BinaryOp) : op.precedence = op.level := by
  cases op <;> rfl

theorem BinaryOp.level_pos (op : BinaryOp) : Layer.additive ≤ op.level :=
  op.precedence_eq_level ▸ op.precedence_pos

theorem BinaryOp.level_lt_unary (op : BinaryOp) : op.level < Layer.unary :=
  op.precedence_eq_level ▸ op.precedence_lt_unary

theorem UnaryOp.exists_kind (op : UnaryOp) :
    ∃ c k, op.symbol.toList = [c] ∧ Token.Kind.ofSign? c = some k ∧ k.unaryOp? = some op := by
  cases op
  all_goals exact ⟨_, _, rfl, rfl, rfl⟩

theorem BinaryOp.exists_kind (op : BinaryOp) :
    ∃ c k, op.symbol.toList = [c] ∧ Token.Kind.ofSign? c = some k ∧ k.binaryOp? = some op := by
  cases op
  all_goals exact ⟨_, _, rfl, rfl, rfl⟩

namespace Spelled

variable {p q n k : Nat} {cs : List Char} {e : Expr}

theorem loosen (h : Spelled q cs e n k) (hle : p ≤ q) : Spelled p cs e n k := by
  intro offset
  obtain ⟨ts, hts, hlex⟩ := h offset
  exact ⟨ts, hts.loosen hle, hlex⟩

theorem digits (n : Nat) : Spelled Layer.primary (Decimal.digits n) (.number n) 0 0 := by
  intro offset
  have hformed : (Token.numeral offset (Decimal.digits n)).Formed := by
    obtain ⟨c, run, hrun⟩ := List.exists_cons_of_ne_nil (Decimal.digits_ne_nil n)
    have hdigit : ∀ d ∈ c :: run, Token.Digit d := fun d hd =>
      Token.isDigit_iff.mp (Decimal.isDigit_of_mem_digits (hrun ▸ hd))
    rw [hrun]
    exact Token.formed_numeral offset (hdigit c List.mem_cons_self)
      fun d hd => hdigit d (List.mem_cons_of_mem c hd)
  have hphrase :
      Phrase Layer.primary [Token.numeral offset (Decimal.digits n)] (.number n) 0 0 := by
    have h := Phrase.number (t := Token.numeral offset (Decimal.digits n)) rfl
    rwa [show (Token.numeral offset (Decimal.digits n)).value?.getD 0 = n from
      Decimal.value_digits n] at h
  exact ⟨_, hphrase, hformed.lexes String.toList_ofList rfl⟩

theorem name {name : String} (h : IsName name) :
    Spelled Layer.primary name.toList (.var name) 0 0 := by
  intro offset
  obtain ⟨⟨c, run, hrun, hc, hparts⟩, hne⟩ := h
  have hformed := Token.formed_word offset hc hparts
  rw [← hrun] at hformed
  have htext : (Token.word offset name.toList).text = name := String.ofList_toList
  have hkind : (Token.word offset name.toList).kind = .identifier := by
    rw [Token.kind_word, htext, if_neg hne]
  have hphrase := Phrase.name hkind
  rw [htext] at hphrase
  exact ⟨_, hphrase, hformed.lexes String.toList_ofList rfl⟩

theorem group (h : Spelled p cs e n k) (hp : Layer.additive ≤ p) :
    Spelled Layer.primary ('(' :: (cs ++ [')'])) e 0 (1 + k) := by
  intro offset
  obtain ⟨ts, hts, hlex⟩ := h (offset + Token.byteLength ['('])
  have hopen := hlex.closed.sign (c := '(') (k := .leftParen) rfl
  exact ⟨_, .group rfl (hts.loosen hp) rfl, hopen⟩

theorem grouped (h : Spelled p cs e n k) (hp : Layer.additive ≤ p) {group : Bool}
    (hq : q ≤ Layer.unary) (hgroup : group = false → q ≤ p) :
    Spelled q (Expr.grouped group cs) e (Expr.groupedSpine group n) (Expr.groupedCost group k) := by
  cases group with
  | false => exact h.loosen (hgroup rfl)
  | true => exact (h.group hp).loosen (Nat.le_succ_of_le hq)

theorem sign (h : Spelled Layer.unary cs e n k) (op : UnaryOp) :
    Spelled Layer.unary (op.symbol.toList ++ cs) (.unary op e) 0 (1 + k) := by
  intro offset
  obtain ⟨c, kind, hsymbol, hc, hop⟩ := op.exists_kind
  obtain ⟨ts, hts, hlex⟩ := h (offset + Token.byteLength [c])
  rw [hsymbol]
  exact ⟨_, .sign hop hts, hlex.sign hc⟩

theorem binary {ds gap : List Char} {a b : Expr} {m d : Nat} {op : BinaryOp}
    (ha : Spelled op.level cs a n k) (hb : Spelled (op.level + 1) ds b m d)
    (hgap : ∀ c ∈ gap, Token.Separator c) :
    Spelled op.level (cs ++ gap ++ op.symbol.toList ++ gap ++ ds) (.binary op a b) (n + 1)
      (max k (n + 1 + d)) := by
  intro offset
  obtain ⟨c, kind, hsymbol, hc, hop⟩ := op.exists_kind
  obtain ⟨ts, hts, hlex⟩ := ha offset
  obtain ⟨us, hus, hlex'⟩ := hb (offset + Token.byteLength cs + Token.byteLength gap +
    Token.byteLength [c] + Token.byteLength gap)
  rw [hsymbol]
  refine ⟨_, ?_, hlex.joined hgap hc hlex'⟩
  exact .binary hts hop op.precedence_eq_level hus

end Spelled

namespace Expr

theorem Plain.additive_le_layer {e : Expr} (h : e.Plain) : Layer.additive ≤ e.layer := by
  cases e with
  | number n | var name => exact (by decide : Layer.additive ≤ Layer.primary)
  | unary op operand => exact (by decide : Layer.additive ≤ Layer.unary)
  | binary op left right => exact op.level_pos
  | assign name value => exact h.elim

/-- An operand that needs no group belongs to the layer that is wanted. -/
theorem Plain.le_layer {e : Expr} (h : e.Plain) {least : Nat} (hle : least ≤ Layer.unary)
    (hloose : e.isLoose least = false) : least ≤ e.layer := by
  cases e with
  | number n | var name => exact Nat.le_succ_of_le hle
  | unary op operand => exact hle
  | binary op left right => exact Nat.le_of_not_lt (of_decide_eq_false hloose)
  | assign name value => exact h.elim

/-- The printed text of an expression spells it. -/
theorem spelled_chars {e : Expr} (h : e.Plain) {gap : List Char}
    (hgap : ∀ c ∈ gap, Token.Separator c) :
    Spelled e.layer (e.chars gap) e e.spine e.nesting := by
  induction e with
  | number n =>
    obtain ⟨m, rfl⟩ := Int.eq_ofNat_of_zero_le h
    exact Spelled.digits m
  | var name => exact Spelled.name h
  | unary op operand ih =>
    have hplain : operand.Plain := h
    have hle := Nat.le_refl Layer.unary
    have hoperand := (ih h).grouped hplain.additive_le_layer hle (hplain.le_layer hle)
    exact hoperand.sign op
  | binary op left right ihl ihr =>
    have hop := op.level_lt_unary
    have hle := Nat.le_of_lt hop
    have hleft := (ihl h.1).grouped h.1.additive_le_layer hle (h.1.le_layer hle)
    have hright := (ihr h.2).grouped h.2.additive_le_layer hop (h.2.le_layer hop)
    exact hleft.binary hright hgap
  | assign name value => exact h.elim

end Expr

/-! ## Printed statements -/

theorem Expr.SourceShaped.clause {e : Expr} (h : e.SourceShaped) {gap : List Char}
    (hgap : ∀ c ∈ gap, Token.Separator c) (offset : Nat) :
    ∃ ts, Clause ts e e.nesting ∧ Token.Lexes offset (e.chars gap) ts := by
  induction e generalizing offset with
  | assign name value ih =>
    obtain ⟨ts, hts, hlex⟩ := Spelled.name h.1 offset
    obtain ⟨us, hus, hlex'⟩ := ih h.2 (offset + Token.byteLength name.toList +
      Token.byteLength gap + Token.byteLength ['='] + Token.byteLength gap)
    refine ⟨_, ?_, hlex.joined hgap (c := '=') (k := .assign) rfl hlex'⟩
    rw [nesting, ← Nat.zero_max (1 + value.nesting)]
    exact .assign (hts.loosen (by decide)) rfl hus
  | number | var | unary | binary =>
    obtain ⟨ts, hts, hlex⟩ := Expr.spelled_chars h hgap offset
    exact ⟨ts, .value (hts.loosen (Plain.additive_le_layer h)), hlex⟩

namespace Stmt

/-- The nesting cost of the printed text. -/
def nesting (s : Stmt) : Nat :=
  s.body.nesting

theorem SourceShaped.sentence {s : Stmt} (h : s.SourceShaped) {gap : List Char}
    (hgap : ∀ c ∈ gap, Token.Separator c) (offset : Nat) :
    ∃ ts, Sentence ts s s.nesting ∧ Token.Lexes offset (s.chars gap) ts := by
  cases s with
  | expr e =>
    obtain ⟨ts, hts, hlex⟩ := Expr.SourceShaped.clause h hgap offset
    exact ⟨ts, .expr hts, hlex⟩
  | render e =>
    obtain ⟨ts, hts, hlex⟩ := Expr.SourceShaped.clause h hgap
      (offset + Token.byteLength "render".toList + Token.byteLength ['('])
    have hopen := hlex.closed.sign (c := '(') (k := .leftParen) rfl
    have hwhole := (Token.lexes_keyword offset).append hopen ?_
    · refine ⟨_, ?_, hwhole⟩
      exact .render (Token.kind_keyword offset) rfl hts rfl
    · intro c hc
      cases hc
      decide

/-- The tokens of a printed statement. -/
theorem SourceShaped.lex_print {s : Stmt} (h : s.SourceShaped) {gap : String}
    (hgap : ∀ c ∈ gap.toList, Token.Separator c) :
    ∃ ts, Token.lex (s.print gap) = .ok (ts ++ [Token.endAt (s.print gap).utf8ByteSize]) ∧
      Sentence ts s s.nesting := by
  obtain ⟨ts, hts, hlex⟩ := h.sentence hgap 0
  refine ⟨ts, ?_, hts⟩
  rw [Token.lex, print, String.toList_ofList, hlex.lexFrom_eq, Nat.zero_add]
  rfl

theorem parse_of_lex {source : String} {tokens : List Token} (h : Token.lex source = .ok tokens) :
    Stmt.parse source = (Stmt.ofTokens tokens).mapError .parse := by
  simp [Stmt.parse, h]

theorem parse_of_sentence {source : String} {ts : List Token} {s : Stmt} {k position : Nat}
    (hlex : Token.lex source = .ok (ts ++ [Token.endAt position])) (hs : Sentence ts s k)
    (hk : k ≤ maxNesting) : Stmt.parse source = .ok s := by
  rw [parse_of_lex hlex, mapError_eq_ok, Stmt.ofTokens_eq_ok]
  exact Stmt.read_of_sentence hs rfl hk []

theorem parse_tooDeep_of_sentence {source : String} {ts : List Token} {s : Stmt} {k position : Nat}
    (hlex : Token.lex source = .ok (ts ++ [Token.endAt position])) (hs : Sentence ts s k)
    (hk : maxNesting < k) :
    ∃ span, Stmt.parse source = .error (.parse (.nestingTooDeep maxNesting span)) := by
  obtain ⟨c, hc⟩ := Stmt.read_tooDeep hs (e := Token.endAt position) rfl hk []
  refine ⟨c.current.span, ?_⟩
  rw [parse_of_lex hlex, Stmt.ofTokens, hc]
  rfl

end Stmt

/-! ## What is read -/

/-- The name tokens of a text hold names of the language. -/
theorem Token.Formed.isName {t : Token} (h : t.Formed) (hk : t.kind = .identifier) :
    IsName t.text := by
  obtain ⟨c, run, hrun, hstarts, hcontinues⟩ := h.spelled
  rw [hk] at hstarts hcontinues
  refine ⟨⟨c, run, hrun, hstarts, hcontinues⟩, fun hrender => ?_⟩
  have := h.keyword.mpr hrender
  rw [hk] at this
  cases this

theorem Phrase.plain {p n k : Nat} {ts : List Token} {e : Expr} (h : Phrase p ts e n k)
    (hts : ∀ t ∈ ts, t.Formed) : e.Plain := by
  induction h with
  | number ht => exact Int.natCast_nonneg _
  | name ht => exact (hts _ (List.mem_singleton_self _)).isName ht
  | group hl inner hr ih => exact ih fun t ht => hts t (by simp [ht])
  | sign ht inner ih => exact ih fun t ht => hts t (List.mem_cons_of_mem _ ht)
  | binary left ht hp right ihl ihr =>
    exact ⟨ihl fun t ht => hts t (List.mem_append_left _ ht), ihr fun t ht => hts t (by simp [ht])⟩
  | tighter inner ih => exact ih hts

theorem Expr.Plain.sourceShaped {e : Expr} (h : e.Plain) : e.SourceShaped := by
  cases e with
  | assign name value => exact h.elim
  | number | var | unary | binary => exact h

theorem Clause.sourceShaped {ts : List Token} {e : Expr} {k : Nat} (h : Clause ts e k)
    (hts : ∀ t ∈ ts, t.Formed) : e.SourceShaped := by
  induction h with
  | value h => exact (h.plain hts).sourceShaped
  | assign target ht value ih =>
    refine ⟨target.plain fun t ht => hts t (List.mem_append_left _ ht), ?_⟩
    exact ih fun t ht => hts t (by simp [ht])

theorem Sentence.sourceShaped {ts : List Token} {s : Stmt} {k : Nat} (h : Sentence ts s k)
    (hts : ∀ t ∈ ts, t.Formed) : s.SourceShaped := by
  cases h with
  | expr h => exact h.sourceShaped hts
  | render hk hl h hr => exact h.sourceShaped fun t ht => hts t (by simp [ht])

theorem Token.Tokenization.formed {source : String} {tokens : List Token}
    (h : Token.Tokenization source tokens) {t : Token} (ht : t ∈ tokens) (hk : t.kind ≠ .eof) :
    t.Formed := by
  obtain ⟨words, rfl, hcut⟩ := h
  rcases List.mem_append.mp ht with ht | ht
  · obtain ⟨before, tail, after, -, hlead⟩ := hcut.placed t ht
    exact hlead.formed
  · rw [List.mem_singleton] at ht
    subst ht
    exact absurd rfl hk

theorem Stmt.sourceShaped_of_parse {source : String} {s : Stmt} (h : Stmt.parse source = .ok s) :
    s.SourceShaped := by
  cases hlex : Token.lex source with
  | error e => simp [Stmt.parse, hlex] at h
  | ok tokens =>
    rw [Stmt.parse_of_lex hlex, mapError_eq_ok] at h
    obtain ⟨ts, e, post, k, hs, -, -, rfl⟩ := Stmt.ofTokens_eq_ok_iff_sentence.mp h
    have htokens := Token.tokenization_of_lex hlex
    refine hs.sourceShaped fun t ht => ?_
    exact htokens.formed (List.mem_append_left _ ht) (hs.kind_ne_eof t ht)

/-- **Printing, then reading, gives the statement back.** What is read from a text is source-shaped.
A source-shaped statement is printed, with any blanks around its operators, as a sentence that
spells it at the cost `Stmt.nesting`; if this is within the limit the text reads back as the
statement, and else it is refused for its nesting. -/
theorem parse_print_sourceShaped :
    (∀ source s, Stmt.parse source = .ok s → s.SourceShaped) ∧
    ∀ s : Stmt, s.SourceShaped → ∀ gap : String, (∀ c ∈ gap.toList, Token.Separator c) →
      (∃ ts, Token.lex (s.print gap) = .ok (ts ++ [Token.endAt (s.print gap).utf8ByteSize]) ∧
        Sentence ts s s.nesting) ∧
      (s.nesting ≤ 512 → Stmt.parse (s.print gap) = .ok s) ∧
      (512 < s.nesting →
        ∃ span, Stmt.parse (s.print gap) = .error (.parse (.nestingTooDeep 512 span))) := by
  refine ⟨fun source s => Stmt.sourceShaped_of_parse, ?_⟩
  intro s hs gap hgap
  obtain ⟨ts, hlex, hsentence⟩ := hs.lex_print hgap
  refine ⟨⟨ts, hlex, hsentence⟩, ?_, ?_⟩
  · exact Stmt.parse_of_sentence hlex hsentence
  · exact Stmt.parse_tooDeep_of_sentence hlex hsentence

/-- A power of powers: neither the sign nor the outer power may fall to the inner ones. -/
def groupedPowers : Stmt :=
  .expr (.assign "x" (.binary .pow (.unary .minus (.binary .pow (.number 2) (.number 3)))
    (.binary .pow (.var "y") (.number 1))))

theorem parse_print_groupedPowers :
    groupedPowers.SourceShaped ∧ groupedPowers.nesting = 4 ∧
      groupedPowers.print " " = "x = -(2 ^ 3) ^ (y ^ 1)" ∧
      Stmt.parse "x = -(2 ^ 3) ^ (y ^ 1)" = .ok groupedPowers := by
  have hx : IsName "x" := ⟨⟨'x', [], rfl, by decide, nofun⟩, by decide⟩
  have hy : IsName "y" := ⟨⟨'y', [], rfl, by decide, nofun⟩, by decide⟩
  have hshaped : groupedPowers.SourceShaped :=
    ⟨hx, ⟨(by decide : (0 : Int) ≤ 2), (by decide : (0 : Int) ≤ 3)⟩, hy,
      (by decide : (0 : Int) ≤ 1)⟩
  have hblank : ∀ c ∈ " ".toList, Token.Separator c := by
    intro c hc
    obtain rfl := List.mem_singleton.mp (show c ∈ [' '] from hc)
    exact List.mem_cons_self
  obtain ⟨-, hread, -⟩ := parse_print_sourceShaped.2 groupedPowers hshaped " " hblank
  exact ⟨hshaped, rfl, rfl, hread (by decide)⟩

end Reckon
