import Reckon.Proofs.Dependence
import Reckon.Proofs.Printing
import Reckon.Proofs.Runs

/-!
# Integers through source texts

An integer that is written into a source text comes out of the run as it went in: the digits are
read as a numeral of their value, a minus sign in front of them as the prefix operator, and a group
around them adds nothing. So an assignment stores the integer and shows its text again, as does
every later read of the name, and an operator between two groups is applied to the very integers.

* `Expr.spelled_decimal`: the text of an integer spells an expression with its value.
* `Spelled.parse`, `Spelled.parse_assign`: texts that consist of one phrase.
* `Interpreter.get?_after`: a binding lasts until the next assignment to its name.
* `run_decimal_texts`: what the texts give when they are run.
-/

namespace Reckon

/-! ## Texts of one phrase -/

theorem Stmt.parse_of_lexes {source : String} {ts : List Token} {s : Stmt} {k : Nat}
    (hlex : Token.Lexes 0 source.toList ts) (hs : Sentence ts s k) (hk : k ≤ maxNesting) :
    Stmt.parse source = .ok s :=
  parse_of_sentence hlex.lexFrom_eq hs hk

namespace Spelled

variable {p n k : Nat} {e : Expr}

theorem parse {source : String} (h : Spelled p source.toList e n k) (hp : Layer.additive ≤ p)
    (hk : k ≤ maxNesting) : Stmt.parse source = .ok (.expr e) := by
  obtain ⟨ts, hts, hlex⟩ := h 0
  exact Stmt.parse_of_lexes hlex (.expr (.value (hts.loosen hp))) hk

theorem parse_assign {name value : String} (h : Spelled p value.toList e n k) (hname : IsName name)
    (hp : Layer.additive ≤ p) (hk : 1 + k ≤ maxNesting) :
    Stmt.parse (name ++ " = " ++ value) = .ok (.expr (.assign name e)) := by
  have hblank : ∀ c ∈ [' '], Token.Separator c := List.forall_mem_singleton.mpr (by decide)
  obtain ⟨ts, hts, hlex⟩ := Spelled.name hname 0
  obtain ⟨us, hus, hlex'⟩ := h (0 + Token.byteLength name.toList + Token.byteLength [' '] +
    Token.byteLength ['='] + Token.byteLength [' '])
  have hwhole := hlex.joined hblank (c := '=') (k := .assign) rfl hlex'
  have htext : (name ++ " = " ++ value).toList =
      name.toList ++ [' '] ++ ['='] ++ [' '] ++ value.toList := by
    simp
  rw [← htext] at hwhole
  have hcost : max 0 (1 + k) ≤ maxNesting := by rwa [Nat.zero_max]
  refine Stmt.parse_of_lexes hwhole (.expr ?_) hcost
  exact .assign (hts.loosen (by decide)) rfl (.value (hus.loosen hp))

end Spelled

/-! ## Decimal texts -/

namespace Expr

/-- What the decimal text of an integer is read as. -/
def ofInt : Int → Expr
  | .ofNat n => number n
  | .negSucc n => unary .minus (number (n + 1 : Nat))

theorem eval_ofInt (limits : Limits) (n : Int) (s : Store) :
    (ofInt n).eval limits s = (.ok n, s) := by
  cases n <;> rfl

theorem spelled_decimal (n : Int) :
    ∃ k ≤ 1, Spelled Layer.unary (Decimal.text n).toList (ofInt n) 0 k := by
  rw [Decimal.toList_text]
  cases n with
  | ofNat n => exact ⟨0, by decide, (Spelled.digits n).loosen (by decide)⟩
  | negSucc n =>
    exact ⟨1, by decide, ((Spelled.digits (n + 1)).loosen (by decide)).sign .minus⟩

/-- A group around the text of an integer is a primary of the same expression. -/
theorem spelled_decimal_group (n : Int) :
    ∃ k ≤ 2, Spelled Layer.primary ('(' :: ((Decimal.text n).toList ++ [')'])) (ofInt n) 0 k := by
  obtain ⟨k, hk, h⟩ := spelled_decimal n
  exact ⟨1 + k, by omega, h.group (by decide)⟩

end Expr

/-! ## Runs -/

namespace Interpreter

theorem run_assign_decimal (i : Interpreter) {name : String} (h : IsName name) (v : Int) :
    i.run (name ++ " = " ++ Decimal.text v) = (.ok (.int v), i.assign name v) := by
  obtain ⟨k, hk, hv⟩ := Expr.spelled_decimal v
  have hcost : 1 + k ≤ maxNesting := Nat.le_trans (Nat.add_le_add_left hk 1) (by decide)
  rw [run_of_parse_expr (hv.parse_assign h (by decide) hcost),
    Expr.eval_assign_ok (Expr.eval_ofInt i.limits v i.store)]
  rfl

theorem run_name {i : Interpreter} {name : String} (h : IsName name) {v : Int}
    (hv : i.store.get? name = some v) : i.run name = (.ok (.int v), i) := by
  have hparse : Stmt.parse name = .ok (.expr (.var name)) :=
    (Spelled.name h).parse (by decide) (Nat.zero_le _)
  rw [run_of_parse_expr hparse, Expr.eval, hv]
  rfl

theorem run_binary_decimal (i : Interpreter) (op : BinaryOp) (a b : Int) :
    i.run ("(" ++ Decimal.text a ++ ") " ++ op.symbol ++ " (" ++ Decimal.text b ++ ")") =
      (((op.apply i.limits a b).map .int).mapError .eval, i) := by
  obtain ⟨k, hk, ha⟩ := Expr.spelled_decimal_group a
  obtain ⟨d, hd, hb⟩ := Expr.spelled_decimal_group b
  have hlevel := op.level_lt_unary
  have hleft : Spelled op.level _ _ _ _ := ha.loosen (Nat.le_succ_of_le (Nat.le_of_lt hlevel))
  have hright : Spelled (op.level + 1) _ _ _ _ := hb.loosen (Nat.le_succ_of_le hlevel)
  have hblank : ∀ c ∈ [' '], Token.Separator c := List.forall_mem_singleton.mpr (by decide)
  have hwhole := hleft.binary hright hblank
  have htext :
      ("(" ++ Decimal.text a ++ ") " ++ op.symbol ++ " (" ++ Decimal.text b ++ ")").toList =
      '(' :: ((Decimal.text a).toList ++ [')']) ++ [' '] ++ op.symbol.toList ++ [' '] ++
        '(' :: ((Decimal.text b).toList ++ [')']) := by
    simp
  rw [← htext] at hwhole
  have hcost : max k (0 + 1 + d) ≤ maxNesting := Nat.le_trans (by omega : _ ≤ 3) (by decide)
  rw [run_of_parse_expr (hwhole.parse op.level_pos hcost),
    Expr.eval_binary_ok (Expr.eval_ofInt _ a _) (Expr.eval_ofInt _ b _)]

/-- The text does not assign to the name when it is run. -/
def Spares (name source : String) : Prop :=
  ∀ e, Stmt.parse source = .ok (.expr e) → name ∉ e.targets

theorem get?_run {i : Interpreter} {name source : String} (h : Spares name source) :
    (i.run source).2.store.get? name = i.store.get? name := by
  cases hparse : Stmt.parse source with
  | error failure => rw [run_of_parse_error hparse]
  | ok s =>
    cases s with
    | render e => rw [run_of_parse_render hparse]
    | expr e =>
      rw [run_of_parse_expr hparse]
      exact e.get?_eval_of_not_mem_targets i.limits (h e hparse) i.store

/-- A binding lasts through all texts that do not assign to its name. -/
theorem get?_after {i : Interpreter} {name : String} {sources : List String}
    (h : ∀ source ∈ sources, Spares name source) :
    (after run i sources).store.get? name = i.store.get? name := by
  induction sources generalizing i with
  | nil => rfl
  | cons source sources ih =>
    obtain ⟨hsource, hsources⟩ := List.forall_mem_cons.mp h
    rw [after_cons, ih hsources, get?_run hsource]

end Interpreter

/-- **Integers go through source texts unchanged.** An assignment of the decimal text of an integer
to a name yields the integer, which is shown as the same text, and binds the name to it. Reading the
name gives the integer again, whatever texts are run in between that do not assign to the name. An
operator between the texts of two integers in groups yields what it yields on the integers, a value
or a failure, and leaves the interpreter as it was. -/
theorem run_decimal_texts (i : Interpreter) :
    (∀ (name : String) (v : Int), IsName name →
      i.run (name ++ " = " ++ Decimal.text v) = (.ok (.int v), i.assign name v) ∧
      (Value.int v).text = Decimal.text v ∧
      ∀ sources : List String, (∀ source ∈ sources, Interpreter.Spares name source) →
        (after Interpreter.run (i.assign name v) sources).run name =
          (.ok (.int v), after Interpreter.run (i.assign name v) sources)) ∧
    ∀ (op : BinaryOp) (a b : Int),
      i.run ("(" ++ Decimal.text a ++ ") " ++ op.symbol ++ " (" ++ Decimal.text b ++ ")") =
        (((op.apply i.limits a b).map .int).mapError .eval, i) := by
  refine ⟨fun name v hname => ⟨i.run_assign_decimal hname v, rfl, fun sources hsources => ?_⟩, ?_⟩
  · apply Interpreter.run_name hname
    rw [Interpreter.get?_after hsources]
    exact i.store.get?_assign_self name v
  · exact i.run_binary_decimal

/-- A name that goes on from the keyword keeps an integer of 66 bits through another assignment. -/
theorem run_decimal_texts_rendered :
    Interpreter.run {} "rendered = -36893488147419103232" =
        (.ok (.int (-36893488147419103232)),
          Interpreter.assign {} "rendered" (-36893488147419103232)) ∧
      (after Interpreter.run {} ["rendered = -36893488147419103232", "x = 7"]).run "rendered" =
        (.ok (.int (-36893488147419103232)),
          after Interpreter.run {} ["rendered = -36893488147419103232", "x = 7"]) := by
  have hall : "endered".toList.all Token.isNamePart = true := rfl
  have hname : IsName "rendered" :=
    ⟨⟨'r', "endered".toList, rfl, by decide, fun d hd =>
      Token.isNamePart_iff.mp (List.all_eq_true.mp hall d hd)⟩, by decide⟩
  have hparse : Stmt.parse "x = 7" = .ok (.expr (.assign "x" (.number 7))) :=
    toOption_eq_some.mp (by decide +kernel)
  have hspares : ∀ source ∈ ["x = 7"], Interpreter.Spares "rendered" source := by
    intro source hsource e he
    rw [List.mem_singleton.mp hsource, hparse] at he
    cases he
    decide
  obtain ⟨hrun, -, hlater⟩ := (run_decimal_texts {}).1 "rendered" (-36893488147419103232) hname
  have htext : "rendered" ++ " = " ++ Decimal.text (-36893488147419103232) =
      "rendered = -36893488147419103232" := by
    decide +kernel
  rw [htext] at hrun
  have hread := hlater ["x = 7"] hspares
  refine ⟨hrun, ?_⟩
  rw [after_cons, hrun]
  exact hread

end Reckon
