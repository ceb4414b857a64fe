import Reckon.Expr

/-!
# Arithmetic

The meaning of the operators on integers of any size. Division and remainder round toward minus
infinity. Power and factorial, whose results grow without limit, are bounded in their right operand
by `Limits`; a power of 0, 1 or -1 stays small and is given for every exponent. A bounded operand is
narrowed to a machine word before it is compared with its bound and counted with.

* `word?_eq_some`: narrowing keeps the number.
* `UnaryOp.applyFactorial_eq`, `BinaryOp.applyPower_eq`: the bounded operators without words.
-/

namespace Reckon

/-- Upper bounds on operands whose results grow without limit. -/
structure Limits where
  /-- The largest operand of a factorial. -/
  maxFactorial : UInt64 := 18446744073709551615
  /-- The largest exponent of a base other than -1, 0 and 1. -/
  maxExponent : UInt32 := 4294967295
  deriving DecidableEq, Repr, Inhabited

/-- The reason why an expression has no value. -/
inductive EvalError where
  | undefinedVariable (name : String)
  | divisionByZero
  | moduloByZero
  | negativeFactorial (operand : Int)
  | negativeExponent (exponent : Int)
  | exponentTooLarge (exponent : Int) (limit : Nat)
  | factorialTooLarge (operand : Int) (limit : Nat)
  deriving DecidableEq, Repr

/-- The product `1 * 2 * ... * n`. -/
def productUpTo (n : Nat) : Nat :=
  n.fold (fun i _ product => product * (i + 1)) 1

@[simp] theorem productUpTo_zero : productUpTo 0 = 1 :=
  rfl

@[simp] theorem productUpTo_succ (n : Nat) : productUpTo (n + 1) = productUpTo n * (n + 1) :=
  rfl

/-- A number as a word of `width` bits, if it fits into one. -/
def word? (width : Nat) (n : Int) : Option (BitVec width) :=
  if 0 ≤ n ∧ n.toNat < Nat.pow 2 width then some (BitVec.ofNat width n.toNat) else none

theorem word?_eq_some {width : Nat} {n : Int} {word : BitVec width} :
    word? width n = some word ↔ (word.toNat : Int) = n := by
  constructor
  · intro h
    rw [word?, Option.ite_none_right_eq_some] at h
    obtain ⟨⟨hnonneg, hfits⟩, hword⟩ := h
    have hnumber : (BitVec.ofNat width n.toNat).toNat = n.toNat := Nat.mod_eq_of_lt hfits
    rw [← Option.some.inj hword, hnumber, Int.toNat_of_nonneg hnonneg]
  · rintro rfl
    have hfits : word.toNat < Nat.pow 2 width := word.isLt
    rw [word?, Int.toNat_natCast, if_pos ⟨Int.natCast_nonneg _, hfits⟩, BitVec.ofNat_toNat,
      BitVec.setWidth_eq]

/-- What an operand gives that is within its bound as a word of the same width. -/
def bounded {width : Nat} (limit : BitVec width) (n : Int) (value : Nat → Int)
    (refusal : EvalError) : Except EvalError Int :=
  match (word? width n).filter (· ≤ limit) with
  | some word => .ok (value word.toNat)
  | none => .error refusal

/-- The width does not show: what does not fit into a word is above every bound of that width. -/
theorem bounded_eq {width : Nat} (limit : BitVec width) {n : Int} (hn : 0 ≤ n) (value : Nat → Int)
    (refusal : EvalError) :
    bounded limit n value refusal =
      if limit.toNat < n then .error refusal else .ok (value n.toNat) := by
  by_cases h : limit.toNat < n
  · have hnone : (word? width n).filter (· ≤ limit) = none := by
      rw [Option.filter_eq_none_iff]
      intro word hword hle
      have hnumber := word?_eq_some.mp hword
      have hlimit : word.toNat ≤ limit.toNat := BitVec.le_def.mp (of_decide_eq_true hle)
      omega
    rw [bounded, hnone, if_pos h]
  · have hlt := limit.isLt
    have hnumber : (BitVec.ofNat width n.toNat).toNat = n.toNat := by
      rw [BitVec.toNat_ofNat, Nat.mod_eq_of_lt (by omega)]
    have hsome : (word? width n).filter (· ≤ limit) = some (BitVec.ofNat width n.toNat) := by
      refine Option.filter_eq_some_iff.mpr ⟨?_, decide_eq_true ?_⟩
      · rw [word?_eq_some, hnumber, Int.toNat_of_nonneg hn]
      · rw [BitVec.le_def, hnumber]
        omega
    simp only [bounded, hsome, hnumber, if_neg h]

namespace UnaryOp

/-- The factorial of an operand within the bound. -/
def applyFactorial (limits : Limits) (n : Int) : Except EvalError Int :=
  if n < 0 then .error (.negativeFactorial n)
  else
    bounded limits.maxFactorial.toBitVec n (fun count => productUpTo count)
      (.factorialTooLarge n limits.maxFactorial.toNat)

theorem applyFactorial_eq (limits : Limits) (n : Int) :
    applyFactorial limits n =
      if n < 0 then .error (.negativeFactorial n)
      else if limits.maxFactorial.toNat < n then
        .error (.factorialTooLarge n limits.maxFactorial.toNat)
      else .ok (productUpTo n.toNat) := by
  rw [applyFactorial]
  by_cases hneg : n < 0
  · rw [if_pos hneg, if_pos hneg]
  · rw [if_neg hneg, if_neg hneg, bounded_eq _ (Int.not_lt.mp hneg)]
    rfl

/-- The value of a prefix operator. -/
def apply (limits : Limits) (op : UnaryOp) (n : Int) : Except EvalError Int :=
  match op with
  | plus => .ok n
  | minus => .ok (-n)
  | factorial => applyFactorial limits n

end UnaryOp

namespace BinaryOp

/-- The power of a base to an exponent within the bound. -/
def applyPower (limits : Limits) (base exponent : Int) : Except EvalError Int :=
  if exponent < 0 then .error (.negativeExponent exponent)
  else if base = 0 then .ok (if exponent = 0 then 1 else 0)
  else if base = 1 then .ok 1
  else if base = -1 then .ok (if exponent % 2 = 0 then 1 else -1)
  else
    bounded limits.maxExponent.toBitVec exponent (Int.pow base)
      (.exponentTooLarge exponent limits.maxExponent.toNat)

theorem applyPower_eq (limits : Limits) (base exponent : Int) :
    applyPower limits base exponent =
      if exponent < 0 then .error (.negativeExponent exponent)
      else if base = 0 then .ok (if exponent = 0 then 1 else 0)
      else if base = 1 then .ok 1
      else if base = -1 then .ok (if exponent % 2 = 0 then 1 else -1)
      else if limits.maxExponent.toNat < exponent then
        .error (.exponentTooLarge exponent limits.maxExponent.toNat)
      else .ok (Int.pow base exponent.toNat) := by
  rw [applyPower]
  by_cases hneg : exponent < 0
  · rw [if_pos hneg, if_pos hneg]
  · rw [if_neg hneg, if_neg hneg, bounded_eq _ (Int.not_lt.mp hneg)]
    rfl

/-- The value of a binary operator. -/
def apply (limits : Limits) (op : BinaryOp) (a b : Int) : Except EvalError Int :=
  match op with
  | add => .ok (a + b)
  | sub => .ok (a - b)
  | mul => .ok (a * b)
  | div => if b = 0 then .error .divisionByZero else .ok (a.fdiv b)
  | mod => if b = 0 then .error .moduloByZero else .ok (a.fmod b)
  | pow => applyPower limits a b

end BinaryOp

end Reckon
