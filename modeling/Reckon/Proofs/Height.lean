import Reckon.Proofs.Reading

/-!
# How high the trees of accepted statements are

The nesting limit charges an operand for the operators *before* it in its chain, but in the tree it
stands below the operators *behind* it. So the limit does not bound the height of a tree by itself.

* `Phrase.path_length_le`: the edges of a path that do not lead into a left operand are within the
  nesting cost; edges into left operands come on top.
* `Phrase.path_length_le_operators`: each edge of a path has an operator of its own in the text.
* `Phrase.path_fits`: without groups, the edges into left operands with which a path ends are within
  the nesting cost too, since their operators are on one spine.
* `Parse.height_le_peak_of_expression`: what is read with `r` levels is at most `peak r` edges high,
  where `peak r = r * (r + 1) / 2 + 1` for `r` above 0.
* `Tower.phrase_tower`, `Tower.path_tower`: towers of groups, each in front of as many operators as
  there are levels, reach this number.

So a tree of more than 512 edges in height is accepted exactly if its nesting cost is within the
limit all the same (`accepted_path_length`), and the height of accepted trees is bounded by 131329
edges and by no smaller number (`accepted_height_exact`).
-/

namespace Reckon

namespace Expr

/-- The edges from a node of a tree to its children. -/
inductive Edge where
  | operand
  | left
  | right
  | value
  deriving DecidableEq, Repr

/-- The edges on a way from the root of a tree to a leaf. -/
inductive Path : Expr → List Edge → Prop where
  | number (n : Int) : Path (.number n) []
  | var (name : String) : Path (.var name) []
  | operand (op : UnaryOp) {e : Expr} {es : List Edge} (h : Path e es) :
    Path (.unary op e) (.operand :: es)
  | left (op : BinaryOp) (b : Expr) {a : Expr} {es : List Edge} (h : Path a es) :
    Path (.binary op a b) (.left :: es)
  | right (op : BinaryOp) (a : Expr) {b : Expr} {es : List Edge} (h : Path b es) :
    Path (.binary op a b) (.right :: es)
  | value (name : String) {e : Expr} {es : List Edge} (h : Path e es) :
    Path (.assign name e) (.value :: es)

/-- The number of edges on the longest way from the root to a leaf. -/
def height : Expr → Nat
  | number _ | var _ => 0
  | unary _ operand => operand.height + 1
  | binary _ left right => max left.height right.height + 1
  | assign _ value => value.height + 1

theorem Path.length_le_height {e : Expr} {es : List Edge} (h : e.Path es) :
    es.length ≤ e.height := by
  induction h with
  | number | var => exact Nat.le_refl 0
  | operand _ _ ih | value _ _ ih => exact Nat.succ_le_succ ih
  | left _ _ _ ih => exact Nat.succ_le_succ (Nat.le_trans ih (Nat.le_max_left _ _))
  | right _ _ _ ih => exact Nat.succ_le_succ (Nat.le_trans ih (Nat.le_max_right _ _))

theorem exists_path_height (e : Expr) : ∃ es, e.Path es ∧ es.length = e.height := by
  induction e with
  | number n => exact ⟨[], .number n, rfl⟩
  | var name => exact ⟨[], .var name, rfl⟩
  | unary op operand ih =>
    obtain ⟨es, hes, hlength⟩ := ih
    exact ⟨.operand :: es, .operand op hes, congrArg (· + 1) hlength⟩
  | binary op left right ihl ihr =>
    by_cases hle : left.height ≤ right.height
    · obtain ⟨es, hes, hlength⟩ := ihr
      refine ⟨.right :: es, .right op left hes, ?_⟩
      rw [height, Nat.max_eq_right hle, List.length_cons, hlength]
    · obtain ⟨es, hes, hlength⟩ := ihl
      refine ⟨.left :: es, .left op right hes, ?_⟩
      rw [height, Nat.max_eq_left (by omega), List.length_cons, hlength]
  | assign name value ih =>
    obtain ⟨es, hes, hlength⟩ := ih
    exact ⟨.value :: es, .value name hes, congrArg (· + 1) hlength⟩

theorem height_le_iff {e : Expr} {n : Nat} :
    e.height ≤ n ↔ ∀ es, e.Path es → es.length ≤ n := by
  constructor
  · exact fun h es hes => Nat.le_trans hes.length_le_height h
  · intro h
    obtain ⟨es, hes, hlength⟩ := e.exists_path_height
    exact hlength ▸ h es hes

end Expr

/-! ## Edges other than those into left operands -/

/-- Every edge that does not lead into a left operand is paid for. -/
theorem Phrase.path_length_le {p n k : Nat} {ts : List Token} {e : Expr} (h : Phrase p ts e n k)
    {es : List Expr.Edge} (hes : e.Path es) : es.length ≤ k + es.count .left := by
  induction h generalizing es with
  | number | name =>
    cases hes
    exact Nat.zero_le _
  | group _ _ _ ih =>
    have := ih hes
    omega
  | sign _ _ ih =>
    cases hes with
    | operand _ hes =>
      have := ih hes
      simp only [List.length_cons, List.count_cons, beq_iff_eq, reduceCtorEq, if_false]
      omega
  | binary _ _ _ _ ihl ihr =>
    cases hes with
    | left _ _ hes =>
      have := ihl hes
      simp only [List.length_cons, List.count_cons_self]
      omega
    | right _ _ hes =>
      have := ihr hes
      simp only [List.length_cons, List.count_cons, beq_iff_eq, reduceCtorEq, if_false]
      omega
  | tighter _ ih => exact ih hes

theorem Clause.path_length_le {k : Nat} {ts : List Token} {e : Expr} (h : Clause ts e k)
    {es : List Expr.Edge} (hes : e.Path es) : es.length ≤ k + es.count .left := by
  induction h generalizing es with
  | value h => exact h.path_length_le hes
  | assign _ _ _ ih =>
    cases hes with
    | value _ hes =>
      have := ih hes
      simp only [List.length_cons, List.count_cons, beq_iff_eq, reduceCtorEq, if_false]
      omega

/-! ## Edges and the operators that spell them -/

/-- Whether a token is a prefix sign, an operator of a chain or the sign of assignments. -/
def Token.isOperator (t : Token) : Bool :=
  t.kind.unaryOp?.isSome || t.kind.binaryOp?.isSome || t.kind == .assign

/-- Every edge of a path has an operator of its own. -/
theorem Phrase.path_length_le_operators {p n k : Nat} {ts : List Token} {e : Expr}
    (h : Phrase p ts e n k) {es : List Expr.Edge} (hes : e.Path es) :
    es.length ≤ ts.countP Token.isOperator := by
  induction h generalizing es with
  | number | name =>
    cases hes
    exact Nat.zero_le _
  | group _ _ _ ih =>
    have := ih hes
    simp only [List.countP_cons, List.countP_append]
    omega
  | sign ht _ ih =>
    cases hes with
    | operand _ hes =>
      have := ih hes
      rw [List.countP_cons_of_pos (by simp [Token.isOperator, ht]), List.length_cons]
      omega
  | binary _ ht _ _ ihl ihr =>
    rw [List.countP_append, List.countP_cons_of_pos (by simp [Token.isOperator, ht])]
    cases hes with
    | left _ _ hes =>
      have := ihl hes
      rw [List.length_cons]
      omega
    | right _ _ hes =>
      have := ihr hes
      rw [List.length_cons]
      omega
  | tighter _ ih => exact ih hes

theorem Clause.path_length_le_operators {k : Nat} {ts : List Token} {e : Expr} (h : Clause ts e k)
    {es : List Expr.Edge} (hes : e.Path es) : es.length ≤ ts.countP Token.isOperator := by
  induction h generalizing es with
  | value h => exact h.path_length_le_operators hes
  | assign _ ht _ ih =>
    cases hes with
    | value _ hes =>
      have := ih hes
      rw [List.countP_append, List.countP_cons_of_pos (by simp [Token.isOperator, ht]),
        List.length_cons]
      omega

theorem Sentence.path_length_le_operators {k : Nat} {ts : List Token} {s : Stmt}
    (h : Sentence ts s k) {es : List Expr.Edge} (hes : s.body.Path es) :
    es.length ≤ ts.countP Token.isOperator := by
  cases h with
  | expr hts => exact hts.path_length_le_operators hes
  | render _ _ hts _ =>
    have := hts.path_length_le_operators hes
    simp only [List.countP_cons, List.countP_append]
    omega

/-! ## Texts without groups -/

/-- A path fits a spine of `n` operators and a cost of `k` levels if the edges into left operands
with which it ends are paid for: by the spine if there are no others, and else by the cost. -/
structure Expr.Edge.Fits (n k : Nat) (es : List Expr.Edge) : Prop where
  spine : ∀ m, es = List.replicate m .left → m ≤ n
  cost : ∀ front m, es = front ++ List.replicate m .left → es.length ≤ k + front.count .left

namespace Expr.Edge.Fits

variable {n k d : Nat} {es : List Expr.Edge}

theorem nil : Fits 0 0 [] where
  spine m hm := by
    cases m with
    | zero => exact Nat.le_refl 0
    | succ m => cases hm
  cost _ _ _ := Nat.zero_le _

theorem mono (h : Fits n k es) (hk : k ≤ d) : Fits n d es where
  spine := h.spine
  cost front m hes := Nat.le_trans (h.cost front m hes) (Nat.add_le_add_right hk _)

theorem cons_left (h : Fits n k es) : Fits (n + 1) (max k (n + 1)) (.left :: es) where
  spine m hm := by
    cases m with
    | zero => exact Nat.zero_le _
    | succ m => exact Nat.succ_le_succ (h.spine m (List.cons.inj hm).2)
  cost front m hes := by
    rcases List.cons_eq_append_iff.mp hes with ⟨rfl, hm⟩ | ⟨front, rfl, htail⟩
    · -- all edges lead into left operands, and the spine has an operator for each
      cases m with
      | zero => cases hm
      | succ m =>
        obtain rfl : es = List.replicate m .left := (List.cons.inj hm).2.symm
        have := h.spine m rfl
        simp only [List.length_cons, List.length_replicate, List.count_nil]
        omega
    · have := h.cost front m htail
      simp only [List.length_cons, List.count_cons_self]
      omega

theorem cons_of_ne {x : Expr.Edge} (hx : x ≠ .left) (h : Fits n k es) (l : Nat) :
    Fits l (1 + k) (x :: es) where
  spine m hm := by
    cases m with
    | zero => exact Nat.zero_le _
    | succ m => exact absurd (List.cons.inj hm).1 hx
  cost front m hes := by
    rcases List.cons_eq_append_iff.mp hes with ⟨rfl, hm⟩ | ⟨front, rfl, htail⟩
    · cases m with
      | zero => cases hm
      | succ m => exact absurd (List.cons.inj hm).1.symm hx
    · have := h.cost front m htail
      rw [List.length_cons, List.count_cons_of_ne hx]
      omega

end Expr.Edge.Fits

/-- Without groups the left operands of a chain are on one spine, which counts their operators. -/
theorem Phrase.path_fits {p n k : Nat} {ts : List Token} {e : Expr} (h : Phrase p ts e n k)
    (hts : ∀ t ∈ ts, t.kind ≠ .leftParen) {es : List Expr.Edge} (hes : e.Path es) :
    Expr.Edge.Fits n k es := by
  induction h generalizing es with
  | number | name =>
    cases hes
    exact .nil
  | group hl => exact absurd hl (hts _ List.mem_cons_self)
  | sign _ _ ih =>
    cases hes with
    | operand _ hes =>
      exact (ih (List.forall_mem_cons.mp hts).2 hes).cons_of_ne (x := .operand) nofun 0
  | binary _ _ _ _ ihl ihr =>
    obtain ⟨hleft, -, hright⟩ : _ ∧ _ ∧ _ := by
      simpa only [List.forall_mem_append, List.forall_mem_cons] using hts
    cases hes with
    | left _ _ hes => exact (ihl hleft hes).cons_left.mono (by omega)
    | right _ _ hes => exact ((ihr hright hes).cons_of_ne (x := .right) nofun _).mono (by omega)
  | tighter _ ih => exact ih hts hes

theorem Clause.exists_path_fits {k : Nat} {ts : List Token} {e : Expr}
    (h : Clause ts e k) (hts : ∀ t ∈ ts, t.kind ≠ .leftParen) {es : List Expr.Edge}
    (hes : e.Path es) : ∃ n, Expr.Edge.Fits n k es := by
  induction h generalizing es with
  | value h => exact ⟨_, h.path_fits hts hes⟩
  | assign _ _ _ ih =>
    cases hes with
    | value _ hes =>
      have hvalue := (List.forall_mem_cons.mp (List.forall_mem_append.mp hts).2).2
      obtain ⟨n, hfits⟩ := ih hvalue hes
      exact ⟨n, (hfits.cons_of_ne (x := .value) nofun n).mono (by omega)⟩

theorem Sentence.exists_path_fits {k : Nat} {ts : List Token} {s : Stmt} (h : Sentence ts s k)
    (hts : ∀ t ∈ ts, t.kind ≠ .leftParen) {es : List Expr.Edge} (hes : s.body.Path es) :
    ∃ n, Expr.Edge.Fits n k es := by
  cases h with
  | expr h => exact h.exists_path_fits hts hes
  | render _ hl _ _ => exact absurd hl (hts _ (by simp))

/-! ## All edges -/

/-- The most edges on a path through an expression that is read with `r` levels. -/
def peak : Nat → Nat
  | 0 => 0
  | 1 => 2
  | r + 2 => peak (r + 1) + (r + 2)

theorem peak_succ_ge (r : Nat) : peak r + (r + 1) ≤ peak (r + 1) := by
  cases r with
  | zero => decide
  | succ r => exact Nat.le_refl _

theorem peak_add_two_le (r : Nat) : peak r + 2 ≤ peak (r + 1) := by
  cases r with
  | zero => decide
  | succ r =>
    have := peak_succ_ge (r + 1)
    omega

theorem le_peak (r : Nat) : r ≤ peak r := by
  cases r with
  | zero => exact Nat.le_refl 0
  | succ r =>
    have := peak_succ_ge r
    omega

theorem two_mul_peak_succ (r : Nat) : 2 * peak (r + 1) = (r + 1) * (r + 2) + 2 := by
  induction r with
  | zero => rfl
  | succ r ih =>
    have hstep : peak (r + 2) = peak (r + 1) + (r + 2) := rfl
    rw [hstep, Nat.mul_add, ih]
    simp only [Nat.add_mul, Nat.mul_add]
    omega

theorem two_mul_peak {r : Nat} (h : 0 < r) : 2 * peak r = r * (r + 1) + 2 := by
  obtain ⟨r, rfl⟩ : ∃ r', r = r' + 1 := ⟨r - 1, by omega⟩
  exact two_mul_peak_succ r

theorem peak_maxNesting : peak 512 = 131329 := by
  have h := two_mul_peak (show 0 < 512 by decide)
  omega

namespace Parse

variable {room least : Nat} {c c' : Cursor} {e : Expr}

/-- With `room` levels an operand is lower than the peak by as many edges as there are levels: each
operator behind it could push it one edge down. -/
def OperandLow (room : Nat) : Prop :=
  ∀ {c c' : Cursor} {e : Expr}, operand room c = .ok (e, c') → e.height + room ≤ peak room

/-- The invariant of the loop: an operator takes one of the levels that are left, and puts what was
read so far one edge down. -/
def ChainLow (room : Nat) : Prop :=
  ∀ {least bound : Nat} {left e : Expr} {c c' : Cursor}, chain room least left c = .ok (e, c') →
    left.height + room ≤ bound → peak room ≤ bound → e.height ≤ bound

theorem expression_low_of (hop : OperandLow room) (hch : ChainLow room)
    (h : expression room least c = .ok (e, c')) : e.height ≤ peak room := by
  obtain ⟨first, c₁, h₁, h₂⟩ := expression_eq_ok h
  exact hch h₂ (hop h₁) (Nat.le_refl _)

theorem operandLow_zero : OperandLow 0 := by
  intro c c' e h
  cases operandReads h with
  | number | name => exact Nat.le_refl 0

theorem operandLow_succ (hop : OperandLow room) (hch : ChainLow room) :
    OperandLow (room + 1) := by
  intro c c' e h
  cases operandReads h with
  | number | name =>
    simp only [Expr.height]
    have := le_peak (room + 1)
    omega
  | sign _ h₁ =>
    -- the sign adds an edge and uses up a level, so it needs a peak that is two edges higher
    have hinner := hop h₁
    have hpeak := peak_add_two_le room
    simp only [Expr.height]
    omega
  | group _ h₁ _ =>
    have hinner := expression_low_of hop hch h₁
    have hpeak := peak_succ_ge room
    omega

theorem chainLow_zero : ChainLow 0 := by
  intro least bound left e c c' h hleft _
  cases chainReads h with
  | stop => exact hleft

theorem chainLow_succ (hop : OperandLow room) (hch : ChainLow room) : ChainLow (room + 1) := by
  intro least bound left e c c' h hleft hpeak
  cases chainReads h with
  | stop => omega
  | step _ _ h₁ h₂ =>
    have hright := expression_low_of hop hch h₁
    have hstep := peak_succ_ge room
    apply hch h₂
    · simp only [Expr.height]
      omega
    · omega

theorem operand_chain_low (room : Nat) : OperandLow room ∧ ChainLow room := by
  induction room with
  | zero => exact ⟨operandLow_zero, chainLow_zero⟩
  | succ room ih => exact ⟨operandLow_succ ih.1 ih.2, chainLow_succ ih.1 ih.2⟩

/-- An expression that is read with `room` levels is no higher than the peak, on every list of
tokens, also where the last token stays in sight. -/
theorem height_le_peak_of_expression (h : expression room least c = .ok (e, c')) :
    e.height ≤ peak room :=
  expression_low_of (operand_chain_low room).1 (operand_chain_low room).2 h

theorem height_le_peak_of_assignment (h : assignment room c = .ok (e, c')) :
    e.height ≤ peak room := by
  induction room generalizing c e with
  | zero =>
    cases assignmentReads h with
    | value h₁ => exact height_le_peak_of_expression h₁
  | succ room ih =>
    cases assignmentReads h with
    | value h₁ => exact height_le_peak_of_expression h₁
    | step _ _ h₂ =>
      have hvalue := ih h₂
      have hpeak := peak_add_two_le room
      simp only [Expr.height]
      omega

theorem height_le_peak_of_statement {s : Stmt} (h : statement room c = .ok (s, c')) :
    s.body.height ≤ peak room := by
  cases statementReads h with
  | expr _ h₁ => exact height_le_peak_of_assignment h₁
  | render _ _ h₁ _ => exact height_le_peak_of_assignment h₁

end Parse

/-! ## Towers -/

namespace Tower

/-- The token of a kind with a given text; its place does not matter here. -/
def token (kind : Token.Kind) (text : String) : Token :=
  ⟨kind, .point 0, text, none⟩

def one : Token :=
  ⟨.number, .point 0, "1", some 1⟩

/-- `+ 1`, `k` times over. -/
def additions : Nat → List Token
  | 0 => []
  | k + 1 => additions k ++ [token .plus "+", one]

/-- An expression with `1` added to it `k` times over. -/
def plusOnes (e : Expr) : Nat → Expr
  | 0 => e
  | k + 1 => .binary .add (plusOnes e k) (.number 1)

/-- `- 1 + 1`, then over and over a group of what there is, with one addition more behind it than
behind the group inside. -/
def tokens : Nat → List Token
  | 0 => [token .minus "-", one] ++ additions 1
  | r + 1 => (token .leftParen "(" :: (tokens r ++ [token .rightParen ")"])) ++ additions (r + 2)

def expr : Nat → Expr
  | 0 => plusOnes (.unary .minus (.number 1)) 1
  | r + 1 => plusOnes (expr r) (r + 2)

/-- The longest path through a tower. -/
def path : Nat → List Expr.Edge
  | 0 => [.left, .operand]
  | r + 1 => List.replicate (r + 2) .left ++ path r

/-- `-`, `k` times over, in front of `1`. -/
def negations : Nat → List Token
  | 0 => [one]
  | k + 1 => token .minus "-" :: negations k

def negated : Nat → Expr
  | 0 => .number 1
  | k + 1 => .unary .minus (negated k)

theorem phrase_one : Phrase Layer.primary [one] (.number 1) 0 0 :=
  .number rfl

theorem phrase_additions {ts : List Token} {e : Expr} {c : Nat}
    (h : Phrase Layer.additive ts e 0 c) (k : Nat) :
    Phrase Layer.additive (ts ++ additions k) (plusOnes e k) k (max c k) := by
  induction k with
  | zero => simpa [additions, plusOnes] using h
  | succ k ih =>
    have hone : Phrase (Layer.additive + 1) [one] (.number 1) 0 0 := phrase_one.loosen (by decide)
    have hnew := Phrase.binary ih (t := token .plus "+") rfl rfl hone
    rw [show max (max c k) (k + 1 + 0) = max c (k + 1) by omega] at hnew
    simpa [additions, plusOnes] using hnew

theorem path_plusOnes {e : Expr} {es : List Expr.Edge} (h : e.Path es) (k : Nat) :
    (plusOnes e k).Path (List.replicate k .left ++ es) := by
  induction k with
  | zero => exact h
  | succ k ih => exact .left .add (.number 1) ih

theorem phrase_negations (k : Nat) : Phrase Layer.unary (negations k) (negated k) 0 k := by
  induction k with
  | zero => exact phrase_one.loosen (by decide)
  | succ k ih =>
    have := Phrase.sign (t := token .minus "-") rfl ih
    rwa [Nat.add_comm] at this

theorem path_negated (k : Nat) : (negated k).Path (List.replicate k .operand) := by
  induction k with
  | zero => exact .number 1
  | succ k ih => exact .operand .minus ih

/-- A tower of `r` groups uses `r + 1` levels. -/
theorem phrase_tower (r : Nat) : Phrase Layer.additive (tokens r) (expr r) (r + 1) (r + 1) := by
  induction r with
  | zero => exact phrase_additions ((phrase_negations 1).loosen (by decide)) 1
  | succ r ih =>
    have hgroup := Phrase.group (l := token .leftParen "(") (r := token .rightParen ")") rfl ih rfl
    have h := phrase_additions (hgroup.loosen (p := Layer.additive) (by decide)) (r + 2)
    rwa [show max (1 + (r + 1)) (r + 2) = r + 1 + 1 by omega] at h

theorem path_tower (r : Nat) : (expr r).Path (path r) := by
  induction r with
  | zero => exact .left .add (.number 1) (.operand .minus (.number 1))
  | succ r ih => exact path_plusOnes ih (r + 2)

theorem length_path (r : Nat) : (path r).length = peak (r + 1) := by
  induction r with
  | zero => rfl
  | succ r ih =>
    have hstep : peak (r + 2) = peak (r + 1) + (r + 2) := rfl
    simp only [path, List.length_append, List.length_replicate, ih, hstep]
    omega

/-- A tower in front of an end mark. -/
def cursor (r : Nat) : Cursor :=
  .start (tokens r ++ [Token.endAt 0])

theorem expression_tower (r : Nat) :
    Parse.expression (r + 1) 0 (cursor r) =
      .ok (expr r, ⟨Cursor.behind none (tokens r), [Token.endAt 0]⟩) :=
  (Parse.expression_phrase (phrase_tower r) (r + 1) none [Token.endAt 0] rfl).1 (Nat.le_refl _)

/-- A tower is as high as its levels allow. -/
theorem height_tower (r : Nat) : (expr r).height = peak (r + 1) := by
  apply Nat.le_antisymm
  · exact Parse.height_le_peak_of_expression (expression_tower r)
  · rw [← length_path r]
    exact (path_tower r).length_le_height

end Tower

/-! ## Accepted statements -/

/-- A phrase within the limit, with an end mark behind it, is accepted. -/
theorem ofTokens_of_phrase {n k : Nat} {ts : List Token} {e : Expr}
    (h : Phrase Layer.additive ts e n k) (hk : k ≤ maxNesting) :
    Stmt.ofTokens (ts ++ [Token.endAt 0]) = .ok (.expr e) :=
  Stmt.ofTokens_eq_ok_iff_sentence.mpr ⟨ts, _, [], k, .expr (.value h), hk, rfl, rfl⟩

theorem height_le_peak_of_ofTokens {tokens : List Token} {s : Stmt}
    (h : Stmt.ofTokens tokens = .ok s) : s.body.height ≤ peak maxNesting := by
  obtain ⟨c, hc, -⟩ := Stmt.read_eq_ok.mp (Stmt.ofTokens_eq_ok.mp h)
  exact Parse.height_le_peak_of_statement hc

theorem path_length_le_of_ofTokens {tokens : List Token} {s : Stmt} {es : List Expr.Edge}
    (h : Stmt.ofTokens tokens = .ok s) (hes : s.body.Path es) :
    es.length ≤ 512 + es.count .left ∧ es.length ≤ 131329 := by
  obtain ⟨ts, k, hts, hk⟩ := Stmt.clause_of_ofTokens h
  have hleft := hts.path_length_le hes
  have hlimit : maxNesting = 512 := rfl
  refine ⟨by omega, ?_⟩
  calc es.length ≤ s.body.height := hes.length_le_height
    _ ≤ peak maxNesting := height_le_peak_of_ofTokens h
    _ = 131329 := peak_maxNesting

/-- The tokens in front of the first end mark. -/
def Token.beforeEnd (tokens : List Token) : List Token :=
  tokens.takeWhile (·.kind != .eof)

theorem Token.beforeEnd_append {ts post : List Token} {e : Token} (hts : ∀ t ∈ ts, t.kind ≠ .eof)
    (he : e.kind = .eof) : beforeEnd (ts ++ e :: post) = ts := by
  rw [beforeEnd, List.takeWhile_append_of_pos (by simpa using hts),
    List.takeWhile_cons_of_neg (by simp [he]), List.append_nil]

/-- An accepted statement is spelled by the tokens in front of the first end mark. -/
theorem Stmt.sentence_beforeEnd {tokens : List Token} {s : Stmt}
    (h : Stmt.ofTokens tokens = .ok s) :
    ∃ k, Sentence (Token.beforeEnd tokens) s k ∧ k ≤ maxNesting := by
  obtain ⟨ts, e, post, k, hs, hk, he, rfl⟩ := Stmt.ofTokens_eq_ok_iff_sentence.mp h
  rw [Token.beforeEnd_append hs.kind_ne_eof he]
  exact ⟨k, hs, hk⟩

theorem path_length_le_of_groupFree {tokens : List Token} {s : Stmt} {front : List Expr.Edge}
    {m : Nat} (h : Stmt.ofTokens tokens = .ok s)
    (hfree : ∀ t ∈ Token.beforeEnd tokens, t.kind ≠ .leftParen)
    (hes : s.body.Path (front ++ List.replicate m .left)) :
    front.length + m ≤ 512 + front.count .left := by
  obtain ⟨k, hs, hk⟩ := Stmt.sentence_beforeEnd h
  obtain ⟨n, hfits⟩ := hs.exists_path_fits hfree hes
  have hlength := hfits.cost front m rfl
  have hlimit : maxNesting = 512 := rfl
  rw [List.length_append, List.length_replicate] at hlength
  omega

namespace Tower

/-- `k` signs in front of the first operand of a sum of `j + 1` numbers. -/
def signedSum (k j : Nat) : List Token :=
  negations k ++ additions j

theorem exists_path_signedSum {k j : Nat} (hk : k ≤ 512) (hj : j ≤ 512) :
    ∃ s, Stmt.ofTokens (signedSum k j ++ [Token.endAt 0]) = .ok s ∧
      s.body.Path (List.replicate j .left ++ List.replicate k .operand) := by
  have hphrase := phrase_additions ((phrase_negations k).loosen (by decide)) j
  have hcost : max k j ≤ maxNesting := Nat.max_le.mpr ⟨hk, hj⟩
  exact ⟨_, ofTokens_of_phrase hphrase hcost, path_plusOnes (path_negated k) j⟩

theorem countP_signedSum (k j : Nat) : (signedSum k j).countP Token.isOperator = k + j := by
  have hsigns : (negations k).countP Token.isOperator = k := by
    induction k with
    | zero => rfl
    | succ k ih => rw [negations, List.countP_cons_of_pos rfl, ih]
  have hadditions : (additions j).countP Token.isOperator = j := by
    induction j with
    | zero => rfl
    | succ j ih =>
      rw [additions, List.countP_append, ih]
      rfl
  rw [signedSum, List.countP_append, hsigns, hadditions]

end Tower

/-- **What the nesting limit says about the height of accepted trees.** A list of tokens meets the
bound of 512 edges exactly if a sentence of it that is higher also costs more than 512 levels. In
any case a path has at most 512 edges besides those into left operands, at most 131329 in all, and
no more than there are operators in the text, so that the bound holds of every text with at most 512
of them. In a text without groups only those edges into left operands come on top of the 512 that
have another edge below them: an operator behind an operand that is not a single number or
name. -/
theorem accepted_path_length (tokens : List Token) :
    ((∀ s, Stmt.ofTokens tokens = .ok s → ∀ es, s.body.Path es → es.length ≤ 512) ↔
      ∀ ts e post s k, tokens = ts ++ e :: post → e.kind = .eof → Sentence ts s k →
        512 < s.body.height → 512 < k) ∧
      (∀ s, Stmt.ofTokens tokens = .ok s → ∀ es, s.body.Path es →
        es.length ≤ 512 + es.count .left ∧ es.length ≤ 131329 ∧
          es.length ≤ (Token.beforeEnd tokens).countP Token.isOperator) ∧
      ((∀ t ∈ Token.beforeEnd tokens, t.kind ≠ .leftParen) →
        ∀ s, Stmt.ofTokens tokens = .ok s → ∀ front m,
          s.body.Path (front ++ List.replicate m .left) →
            front.length + m ≤ 512 + front.count .left) := by
  refine ⟨⟨?_, ?_⟩, ?_, fun hfree s hs front m hes => path_length_le_of_groupFree hs hfree hes⟩
  · intro h ts e post s k htokens he hs hheight
    refine Nat.lt_of_not_le fun hk => ?_
    have hok := Stmt.ofTokens_eq_ok_iff_sentence.mpr ⟨ts, e, post, k, hs, hk, he, htokens⟩
    have hle : s.body.height ≤ 512 := Expr.height_le_iff.mpr (h s hok)
    omega
  · intro h s hok
    obtain ⟨ts, e, post, k, hs, hk, he, htokens⟩ := Stmt.ofTokens_eq_ok_iff_sentence.mp hok
    refine Expr.height_le_iff.mp (Nat.le_of_not_lt fun hheight => ?_)
    exact Nat.not_lt.mpr hk (h ts e post s k htokens he hs hheight)
  · intro s hs es hes
    obtain ⟨hleft, hall⟩ := path_length_le_of_ofTokens hs hes
    obtain ⟨k, hsentence, -⟩ := Stmt.sentence_beforeEnd hs
    exact ⟨hleft, hall, hsentence.path_length_le_operators hes⟩

/-- One edge into a left operand is enough for a path of more than 512 edges, and the bound on all
paths is reached. A sum of `j + 1` numbers with `k` signs in front is accepted as long as `k` and
`j` are each within the limit, and has a path with an edge for each of its operators. -/
theorem accepted_path_exceeds_limit :
    (∃ s es, Stmt.ofTokens (Tower.negations 512 ++ Tower.additions 1 ++ [Token.endAt 0]) = .ok s ∧
      s.body.Path es ∧ es.count .left = 1 ∧ es.length = 513) ∧
      (∃ s es, Stmt.ofTokens (Tower.tokens 511 ++ [Token.endAt 0]) = .ok s ∧ s.body.Path es ∧
        es.length = 131329) ∧
      ∀ k j, k ≤ 512 → j ≤ 512 →
        ∃ s, Stmt.ofTokens (Tower.signedSum k j ++ [Token.endAt 0]) = .ok s ∧
          s.body.Path (List.replicate j .left ++ List.replicate k .operand) ∧
          (Tower.signedSum k j).countP Token.isOperator = k + j := by
  refine ⟨?_, ?_, fun k j hk hj => ?_⟩
  · obtain ⟨s, hs, hes⟩ := Tower.exists_path_signedSum (Nat.le_refl 512) (show 1 ≤ 512 by decide)
    refine ⟨s, _, hs, hes, ?_, ?_⟩
    · rw [List.count_append, List.count_replicate, List.count_replicate]
      rfl
    · rw [List.length_append, List.length_replicate, List.length_replicate]
  · have htower := ofTokens_of_phrase (Tower.phrase_tower 511) (by decide)
    refine ⟨_, _, htower, Tower.path_tower 511, ?_⟩
    rw [Tower.length_path, peak_maxNesting]
  · obtain ⟨s, hs, hes⟩ := Tower.exists_path_signedSum hk hj
    exact ⟨s, hs, hes, Tower.countP_signedSum k j⟩

/-- **The exact height that the nesting limit allows.** An accepted tree is at most 131329 edges
high, and one is as high as that. With `r` levels left an expression is at most
`r * (r + 1) / 2 + 1` edges high, and one is as high as that. -/
theorem accepted_height_exact :
    ((∀ tokens s, Stmt.ofTokens tokens = .ok s → s.body.height ≤ 512 * 513 / 2 + 1) ∧
      (∃ tokens s, Stmt.ofTokens tokens = .ok s ∧ s.body.height = 512 * 513 / 2 + 1) ∧
      512 * 513 / 2 + 1 = 131329) ∧
    ∀ r, 1 ≤ r →
      (∀ c e c', Parse.expression r 0 c = .ok (e, c') → e.height ≤ r * (r + 1) / 2 + 1) ∧
        ∃ c e c', Parse.expression r 0 c = .ok (e, c') ∧ e.height = r * (r + 1) / 2 + 1 := by
  refine ⟨⟨fun tokens s h => ?_, ?_, rfl⟩, fun r hr => ?_⟩
  · have hpeak := height_le_peak_of_ofTokens h
    have hlimit : peak maxNesting = 131329 := peak_maxNesting
    omega
  · have htower := ofTokens_of_phrase (Tower.phrase_tower 511) (by decide)
    refine ⟨_, _, htower, ?_⟩
    have hheight : (Tower.expr 511).height = peak 512 := Tower.height_tower 511
    exact hheight.trans peak_maxNesting
  · obtain ⟨r, rfl⟩ : ∃ r', r = r' + 1 := ⟨r - 1, by omega⟩
    have hpeak := two_mul_peak hr
    refine ⟨fun c e c' h => ?_, _, _, _, Tower.expression_tower r, ?_⟩
    · have hheight := Parse.height_le_peak_of_expression h
      omega
    · have hheight := Tower.height_tower r
      omega

theorem accepted_height_two_levels :
    (∀ c e c', Parse.expression 2 0 c = .ok (e, c') → e.height ≤ 4) ∧
      ∃ c e c', Parse.expression 2 0 c = .ok (e, c') ∧ e.height = 4 :=
  accepted_height_exact.2 2 (by decide)

end Reckon
