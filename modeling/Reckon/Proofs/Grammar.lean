import Reckon.Stmt.Parser

/-!
# The grammar of statements

The layered grammar as relations between tokens and what they spell, stated without the readers:

    statement      := "render" "(" assignment ")" | assignment
    assignment     := additive ( "=" assignment )?
    additive       := multiplicative ( ("+"|"-") multiplicative )*
    multiplicative := power ( ("*"|"/"|"%") power )*
    power          := unary ( "^" unary )*
    unary          := ("+"|"-"|"!") unary | primary
    primary        := NUMBER | IDENTIFIER | "(" additive ")"

`Phrase` covers the five layers of expressions, `Clause` assignments and `Sentence` statements. Each
derivation yields one tree, to which a group adds no node, and a *nesting cost*. A prefix sign, a
group and an assignment each charge one level for what they hold. An operator of a chain charges its
right operand one level for itself and one for every operator before it in the chain; these are
counted by the *spine* of the left operand. The left operand is charged nothing.
-/

namespace Reckon

/-! ## The layers of expressions -/

namespace Layer

/-- Layers are numbered by how tightly they bind: an operator of precedence `p` joins a phrase of
layer `p` to one of layer `p + 1`. -/
abbrev additive : Nat := 1

abbrev multiplicative : Nat := 2

abbrev power : Nat := 3

abbrev unary : Nat := 4

abbrev primary : Nat := 5

end Layer

/-- `Phrase p ts e n c`: the tokens `ts` spell `e` in layer `p`, with `n` operators on the left
spine outside of groups, at the nesting cost `c`. -/
inductive Phrase : Nat → List Token → Expr → Nat → Nat → Prop where
  | number {t : Token} (ht : t.kind = .number) :
    Phrase Layer.primary [t] (.number (t.value?.getD 0)) 0 0
  | name {t : Token} (ht : t.kind = .identifier) :
    Phrase Layer.primary [t] (.var t.text) 0 0
  | group {l r : Token} {ts : List Token} {e : Expr} {n c : Nat} (hl : l.kind = .leftParen)
      (inner : Phrase Layer.additive ts e n c) (hr : r.kind = .rightParen) :
    Phrase Layer.primary (l :: (ts ++ [r])) e 0 (1 + c)
  | sign {t : Token} {op : UnaryOp} {ts : List Token} {e : Expr} {n c : Nat}
      (ht : t.kind.unaryOp? = some op) (inner : Phrase Layer.unary ts e n c) :
    Phrase Layer.unary (t :: ts) (.unary op e) 0 (1 + c)
  | binary {p : Nat} {t : Token} {op : BinaryOp} {ts us : List Token} {a b : Expr}
      {n m c d : Nat} (left : Phrase p ts a n c) (ht : t.kind.binaryOp? = some op)
      (hp : op.precedence = p) (right : Phrase (p + 1) us b m d) :
    Phrase p (ts ++ t :: us) (.binary op a b) (n + 1) (max c (n + 1 + d))
  /-- A phrase of one layer is a phrase of the next looser layer. -/
  | tighter {p : Nat} {ts : List Token} {e : Expr} {n c : Nat} (inner : Phrase (p + 1) ts e n c) :
    Phrase p ts e n c

/-- `Clause ts e c`: the tokens `ts` spell the expression or assignment `e`, at the cost `c`. -/
inductive Clause : List Token → Expr → Nat → Prop where
  | value {ts : List Token} {e : Expr} {n c : Nat} (h : Phrase Layer.additive ts e n c) :
    Clause ts e c
  | assign {t : Token} {ts us : List Token} {name : String} {e : Expr} {n c d : Nat}
      (target : Phrase Layer.additive ts (.var name) n c) (ht : t.kind = .assign)
      (value : Clause us e d) :
    Clause (ts ++ t :: us) (.assign name e) (max c (1 + d))

/-- `Sentence ts s c`: the tokens `ts` spell the statement `s`, at the cost `c`. -/
inductive Sentence : List Token → Stmt → Nat → Prop where
  | expr {ts : List Token} {e : Expr} {c : Nat} (h : Clause ts e c) : Sentence ts (.expr e) c
  | render {k l r : Token} {ts : List Token} {e : Expr} {c : Nat} (hk : k.kind = .render)
      (hl : l.kind = .leftParen) (h : Clause ts e c) (hr : r.kind = .rightParen) :
    Sentence (k :: l :: (ts ++ [r])) (.render e) c

/-! ## Facts about derivations -/

theorem BinaryOp.precedence_pos (op : BinaryOp) : 1 ≤ op.precedence := by
  cases op <;> decide

theorem BinaryOp.precedence_lt_unary (op : BinaryOp) : op.precedence < Layer.unary := by
  cases op <;> decide

namespace Phrase

variable {p q n c : Nat} {ts : List Token} {e : Expr}

theorem loosen (h : Phrase q ts e n c) (hle : p ≤ q) : Phrase p ts e n c := by
  induction hle with
  | refl => exact h
  | step _ ih => exact ih (.tighter h)

theorem spine_le_cost (h : Phrase p ts e n c) : n ≤ c := by
  induction h with
  | number | name | group | sign => exact Nat.zero_le _
  | binary => omega
  | tighter _ ih => exact ih

/-- Operators stand on the left spine of looser layers only. -/
theorem spine_eq_zero (h : Phrase p ts e n c) (hp : Layer.unary ≤ p) : n = 0 := by
  induction h with
  | number | name | group | sign => rfl
  | @binary p t op _ _ _ _ _ _ _ _ _ _ hop =>
    have := op.precedence_lt_unary
    omega
  | tighter _ ih => exact ih (by omega)

/-- A phrase holds neither an end mark nor the keyword of drawings. -/
theorem kind_ne (h : Phrase p ts e n c) : ∀ t ∈ ts, t.kind ≠ .eof ∧ t.kind ≠ .render := by
  induction h with
  | number ht | name ht => simp [ht]
  | group hl _ hr ih =>
    refine List.forall_mem_cons.mpr ⟨by simp [hl], List.forall_mem_append.mpr ⟨ih, ?_⟩⟩
    simp [hr]
  | @sign t op _ _ _ _ ht _ ih =>
    refine List.forall_mem_cons.mpr ⟨?_, ih⟩
    cases hk : t.kind <;> simp_all [Token.Kind.unaryOp?]
  | @binary _ t _ _ _ _ _ _ _ _ _ _ ht _ _ ihl ihr =>
    refine List.forall_mem_append.mpr ⟨ihl, List.forall_mem_cons.mpr ⟨?_, ihr⟩⟩
    cases hk : t.kind <;> simp_all [Token.Kind.binaryOp?]
  | tighter _ ih => exact ih

theorem ne_nil (h : Phrase p ts e n c) : ts ≠ [] := by
  induction h with
  | number | name | group | sign | binary => simp
  | tighter _ ih => exact ih

end Phrase

namespace Clause

variable {ts : List Token} {e : Expr} {c : Nat}

theorem kind_ne (h : Clause ts e c) : ∀ t ∈ ts, t.kind ≠ .eof ∧ t.kind ≠ .render := by
  induction h with
  | value h => exact h.kind_ne
  | assign target ht _ ih =>
    refine List.forall_mem_append.mpr ⟨target.kind_ne, List.forall_mem_cons.mpr ⟨?_, ih⟩⟩
    simp [ht]

theorem ne_nil (h : Clause ts e c) : ts ≠ [] := by
  cases h with
  | value h => exact h.ne_nil
  | assign => simp

end Clause

/-- No sentence holds an end mark. -/
theorem Sentence.kind_ne_eof {ts : List Token} {s : Stmt} {c : Nat} (h : Sentence ts s c) :
    ∀ t ∈ ts, t.kind ≠ .eof := by
  cases h with
  | expr h => exact fun t ht => (h.kind_ne t ht).1
  | render hk hl h hr =>
    have hne := fun t ht => (h.kind_ne t ht).1
    simpa [hk, hl, hr, or_imp, forall_and] using hne

end Reckon
