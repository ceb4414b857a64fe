import Reckon.Proofs.Messages
import Reckon.Stmt.Dump

/-!
# A dump determines its statement

The text of a string ends at its closing quote and the text of an object at its closing brace, so
where a value ends can be told from the text alone. This holds of values that are made of strings
and objects only: the text `1` of a number also starts the text `12`. A dump has no numbers in it,
because integers are written as strings, and nothing in a name can be taken for the end of a string.

* `Json.quote_append_inj`: strings, through what the reader finds behind the opening quote.
* `Json.objectBody_inj`: the members of an object, one after the other.
* `Json.Worded.compact_append_inj`: values, whatever follows them.
* `Expr.eq_of_toJson`: the value of a node names its form, and holds all of its parts.
* `Stmt.dump_inj`: statements.
-/

namespace Reckon

namespace Json

/-! ## Strings -/

theorem ReadsString.unique {cs s t u v : List Char} (hs : ReadsString cs s u)
    (ht : ReadsString cs t v) : s = t ∧ u = v := by
  obtain ⟨r, hr, rfl, rfl⟩ := hs 0
  obtain ⟨r', hr', rfl, rfl⟩ := ht 0
  rw [hr] at hr'
  obtain rfl := Except.ok.inj hr'
  exact ⟨rfl, rfl⟩

/-- Where a string ends, and what it is, can be told from the text behind its opening quote. -/
theorem quote_append_inj {s t : String} {u v : List Char}
    (h : (quote s).toList ++ u = (quote t).toList ++ v) : s = t ∧ u = v := by
  simp only [toList_quote, List.cons_append, List.append_assoc, List.nil_append, List.cons.injEq,
    true_and] at h
  have hs := readsString_escape s.toList u
  rw [h] at hs
  obtain ⟨hst, huv⟩ := hs.unique (readsString_escape t.toList v)
  exact ⟨String.toList_inj.mp hst, huv⟩

/-! ## Values -/

/-- Values that are made of strings and objects only. -/
inductive Worded : Json → Prop where
  | string (s : String) : Worded (.string s)
  | object {members : List (String × Json)} (h : ∀ m ∈ members, Worded m.2) :
      Worded (.object members)

/-- Where the text of the value ends can be told from what stands there. -/
def Delimited (j : Json) : Prop :=
  ∀ {k : Json} {u v : List Char}, Worded k → j.compact.toList ++ u = k.compact.toList ++ v →
    j = k ∧ u = v

/-- The text behind the opening brace of an object, which goes on with `u`. -/
def objectBody (members : List (String × Json)) (u : List Char) : List Char :=
  (compactMembers members).toList ++ '\x7d' :: u

/-- The text behind a member, if `members` follow it. -/
def memberEnd (members : List (String × Json)) (u : List Char) : List Char :=
  match members with
  | [] => '\x7d' :: u
  | m :: rest => ',' :: objectBody (m :: rest) u

theorem objectBody_cons (name : String) (j : Json) (members : List (String × Json))
    (u : List Char) :
    objectBody ((name, j) :: members) u =
      (quote name).toList ++ ':' :: (j.compact.toList ++ memberEnd members u) := by
  cases members with
  | nil => simp [objectBody, memberEnd, compactMembers]
  | cons m rest => simp [objectBody, memberEnd, compactMembers]

theorem compact_object_append (members : List (String × Json)) (u : List Char) :
    (Json.object members).compact.toList ++ u = '\x7b' :: objectBody members u := by
  simp [compact, objectBody]

/-- The members of an object and the end of it can be told from the text, if the end of every
value can. -/
theorem objectBody_inj {ms ns : List (String × Json)} {u v : List Char}
    (hms : ∀ m ∈ ms, Delimited m.2) (hns : ∀ n ∈ ns, Worded n.2)
    (h : objectBody ms u = objectBody ns v) : ms = ns ∧ u = v := by
  induction ms generalizing ns with
  | nil =>
    cases ns with
    | nil => exact ⟨rfl, List.tail_eq_of_cons_eq h⟩
    | cons n ns =>
      rw [objectBody_cons, toList_quote] at h
      exact absurd (List.head_eq_of_cons_eq h) (by decide)
  | cons m ms ih =>
    cases ns with
    | nil =>
      rw [objectBody_cons, toList_quote] at h
      exact absurd (List.head_eq_of_cons_eq h) (by decide)
    | cons n ns =>
      obtain ⟨hm, hms⟩ := List.forall_mem_cons.mp hms
      obtain ⟨hn, hns⟩ := List.forall_mem_cons.mp hns
      rw [objectBody_cons, objectBody_cons] at h
      obtain ⟨hname, h⟩ := quote_append_inj h
      obtain ⟨hvalue, h⟩ := hm hn (List.tail_eq_of_cons_eq h)
      have hmn : m = n := Prod.ext hname hvalue
      -- behind the value stands the end of the object or a comma, and that on both sides alike
      cases ms with
      | nil =>
        cases ns with
        | nil => exact ⟨by rw [hmn], List.tail_eq_of_cons_eq h⟩
        | cons n' ns => exact absurd (List.head_eq_of_cons_eq h) (by decide)
      | cons m' ms =>
        cases ns with
        | nil => exact absurd (List.head_eq_of_cons_eq h) (by decide)
        | cons n' ns =>
          obtain ⟨hrest, huv⟩ := ih hms hns (List.tail_eq_of_cons_eq h)
          exact ⟨by rw [hmn, hrest], huv⟩

/-- Texts of two values with anything behind them agree only if the values do. -/
theorem Worded.compact_append_inj {j : Json} (hj : Worded j) : Delimited j := by
  induction hj with
  | string s =>
    intro k u v hk h
    cases hk with
    | string t =>
      obtain ⟨rfl, huv⟩ := quote_append_inj h
      exact ⟨rfl, huv⟩
    | object hns =>
      rw [compact, toList_quote, compact_object_append] at h
      exact absurd (List.head_eq_of_cons_eq h) (by decide)
  | object _ ih =>
    intro k u v hk h
    rw [compact_object_append] at h
    cases hk with
    | string t =>
      rw [compact, toList_quote] at h
      exact absurd (List.head_eq_of_cons_eq h) (by decide)
    | object hns =>
      rw [compact_object_append] at h
      obtain ⟨rfl, huv⟩ := objectBody_inj ih hns (List.tail_eq_of_cons_eq h)
      exact ⟨rfl, huv⟩

theorem Worded.eq_of_compact {j k : Json} (hj : Worded j) (hk : Worded k)
    (h : j.compact = k.compact) : j = k := by
  have happend : j.compact.toList ++ [] = k.compact.toList ++ [] := by rw [h]
  exact (hj.compact_append_inj hk happend).1

/-- An object with one member. -/
theorem Worded.single {j : Json} (h : Worded j) (name : String) : Worded (.object [(name, j)]) :=
  .object (List.forall_mem_singleton.mpr h)

end Json

/-! ## Nodes -/

theorem UnaryOp.dumpName_injective {a b : UnaryOp} (h : a.dumpName = b.dumpName) : a = b := by
  cases a <;> cases b <;> simp [dumpName] at h ⊢

theorem BinaryOp.dumpName_injective {a b : BinaryOp} (h : a.dumpName = b.dumpName) : a = b := by
  cases a <;> cases b <;> simp [dumpName] at h ⊢

theorem Decimal.text_injective {m n : Int} (h : text m = text n) : m = n :=
  chars_injective (String.ofList_inj.mp h)

namespace Expr

open Json (Worded)

theorem worded_toJson (e : Expr) : Worded e.toJson := by
  induction e with
  | number n => exact (Worded.string _).single _
  | var name => exact (Worded.string name).single _
  | unary op operand ih =>
    refine (Worded.object ?_).single _
    exact List.forall_mem_cons.mpr ⟨.string _, List.forall_mem_singleton.mpr ih⟩
  | binary op left right ihl ihr =>
    refine (Worded.object ?_).single _
    refine List.forall_mem_cons.mpr ⟨.string _, ?_⟩
    exact List.forall_mem_cons.mpr ⟨ihl, List.forall_mem_singleton.mpr ihr⟩
  | assign name value ih =>
    refine (Worded.object ?_).single _
    exact List.forall_mem_cons.mpr ⟨.string name, List.forall_mem_singleton.mpr ih⟩

/-- The one member of a node is named for its form and holds the parts. -/
theorem eq_of_toJson {e f : Expr} (h : e.toJson = f.toJson) : e = f := by
  induction e generalizing f with
  | number n =>
    cases f with
    | number m =>
      obtain rfl : n = m := Decimal.text_injective (by simpa [toJson] using h)
      rfl
    | _ => simp [toJson] at h
  | var name =>
    cases f with
    | var other =>
      obtain rfl : name = other := by simpa [toJson] using h
      rfl
    | _ => simp [toJson] at h
  | unary op operand ih =>
    cases f with
    | unary op' operand' =>
      obtain ⟨hop, hoperand⟩ : op.dumpName = op'.dumpName ∧ operand.toJson = operand'.toJson := by
        simpa [toJson] using h
      rw [UnaryOp.dumpName_injective hop, ih hoperand]
    | _ => simp [toJson] at h
  | binary op left right ihl ihr =>
    cases f with
    | binary op' left' right' =>
      obtain ⟨hop, hleft, hright⟩ : op.dumpName = op'.dumpName ∧ left.toJson = left'.toJson ∧
          right.toJson = right'.toJson := by
        simpa [toJson] using h
      rw [BinaryOp.dumpName_injective hop, ihl hleft, ihr hright]
    | _ => simp [toJson] at h
  | assign name value ih =>
    cases f with
    | assign other value' =>
      obtain ⟨rfl, hvalue⟩ : name = other ∧ value.toJson = value'.toJson := by
        simpa [toJson] using h
      rw [ih hvalue]
    | _ => simp [toJson] at h

end Expr

namespace Stmt

theorem worded_toJson (s : Stmt) : s.toJson.Worded := by
  cases s with
  | expr e => exact e.worded_toJson.single _
  | render e => exact e.worded_toJson.single _

theorem eq_of_toJson {s t : Stmt} (h : s.toJson = t.toJson) : s = t := by
  cases s with
  | expr e =>
    cases t with
    | expr f =>
      have hbody : e.toJson = f.toJson := by simpa [toJson] using h
      rw [Expr.eq_of_toJson hbody]
    | render f => simp [toJson] at h
  | render e =>
    cases t with
    | expr f => simp [toJson] at h
    | render f =>
      have hbody : e.toJson = f.toJson := by simpa [toJson] using h
      rw [Expr.eq_of_toJson hbody]

/-- **A dump loses nothing.** Two statements have one dump only if they are equal, whatever trees
they are, however large their integers, and whatever characters stand in their names. -/
theorem dump_inj (s t : Stmt) : s.dump = t.dump ↔ s = t := by
  refine ⟨fun h => eq_of_toJson ?_, congrArg dump⟩
  exact s.worded_toJson.eq_of_compact t.worded_toJson h

-- a name that looks like the end of its node stays inside of its quotes
example :
    (expr (.var "y\"\x7d\x7d")).dump = "\x7b\"Expr\":\x7b\"Variable\":\"y\\\"\x7d\x7d\"\x7d\x7d" :=
  rfl

end Stmt

end Reckon
