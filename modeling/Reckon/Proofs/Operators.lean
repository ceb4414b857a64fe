import Reckon.Arithmetic

/-!
# Operators are exact

Each operator gives the exact result on integers of any size, or the failure that its operands call
for. Quotient and remainder are pinned down by the law of floor division, whichever signs the
operands have; a power is the product of equal factors, a factorial that of the first numbers. What
the operators do on their own way there does not show: the closed forms for the bases 0, 1 and -1
are products of equal factors, and a bound refuses as a machine word what it refuses as a number.

* `floorDivides_iff`: the law of floor division has one solution.
* `BinaryOp.apply_pow_cases`, `UnaryOp.apply_factorial_cases`: powers and factorials as products.
* `operators_exact`: all outcomes of the operators that can fail.
-/

namespace Reckon

/-! ## Floor division -/

/-- `q` is the quotient and `r` the remainder of `a` by `b`: they make up `a`, the remainder is
smaller than the divisor, and it has the sign of the divisor unless it is zero. -/
structure FloorDivides (a b q r : Int) : Prop where
  sum : q * b + r = a
  small : r.natAbs < b.natAbs
  sign : r = 0 ∨ r.sign = b.sign

theorem FloorDivides.divisor_ne_zero {a b q r : Int} (h : FloorDivides a b q r) : b ≠ 0 := by
  have := h.small
  omega

/-- Below a positive divisor the law asks for a remainder from 0 on. -/
theorem floorDivides_iff_of_pos {a b q r : Int} (hb : 0 < b) :
    FloorDivides a b q r ↔ r + b * q = a ∧ 0 ≤ r ∧ r < b := by
  have hsign : b.sign = 1 := Int.sign_eq_one_of_pos hb
  constructor
  · rintro ⟨hsum, hsmall, hr⟩
    rw [hsign, Int.sign_eq_one_iff_pos] at hr
    exact ⟨by rw [← hsum, Int.mul_comm, Int.add_comm], by omega, by omega⟩
  · rintro ⟨hsum, hnonneg, hlt⟩
    refine ⟨by rw [← hsum, Int.mul_comm, Int.add_comm], by omega, ?_⟩
    rw [hsign, Int.sign_eq_one_iff_pos]
    omega

theorem floorDivides_iff_of_neg {a b q r : Int} (hb : b < 0) :
    FloorDivides a b q r ↔ r + b * q = a ∧ b < r ∧ r ≤ 0 := by
  have hsign : b.sign = -1 := Int.sign_eq_neg_one_of_neg hb
  constructor
  · rintro ⟨hsum, hsmall, hr⟩
    rw [hsign, Int.sign_eq_neg_one_iff_neg] at hr
    exact ⟨by rw [← hsum, Int.mul_comm, Int.add_comm], by omega, by omega⟩
  · rintro ⟨hsum, hlt, hnonpos⟩
    refine ⟨by rw [← hsum, Int.mul_comm, Int.add_comm], by omega, ?_⟩
    rw [hsign, Int.sign_eq_neg_one_iff_neg]
    omega

/-- Quotient and remainder are the only solution of the law of floor division. -/
theorem floorDivides_iff {a b q r : Int} (hb : b ≠ 0) :
    FloorDivides a b q r ↔ a.fdiv b = q ∧ a.fmod b = r := by
  rcases Int.lt_or_gt_of_ne hb with hneg | hpos
  · rw [floorDivides_iff_of_neg hneg, Int.fdiv_fmod_unique' hneg]
  · rw [floorDivides_iff_of_pos hpos, Int.fdiv_fmod_unique hpos]

/-- What refuses the divisor 0 refuses nothing else. -/
theorem refuses_zero_iff {b v : Int} {refusal err : EvalError} :
    (if b = 0 then .error refusal else .ok v : Except EvalError Int) = .error err ↔
      b = 0 ∧ err = refusal := by
  split
  · next hb => simp [hb, eq_comm]
  · next hb => simp [hb]

theorem BinaryOp.apply_div_mod_eq_ok {limits : Limits} {a b q r : Int} :
    div.apply limits a b = .ok q ∧ mod.apply limits a b = .ok r ↔ FloorDivides a b q r := by
  by_cases hb : b = 0
  · constructor
    · rintro ⟨hdiv, -⟩
      rw [apply, if_pos hb] at hdiv
      cases hdiv
    · intro h
      exact (h.divisor_ne_zero hb).elim
  · rw [floorDivides_iff hb, apply, apply, if_neg hb, if_neg hb, Except.ok.injEq, Except.ok.injEq]

/-! ## Products -/

/-- The product of a list of factors, from the first on. -/
def product (factors : List Int) : Int :=
  factors.foldl (fun product factor => product * factor) 1

theorem product_concat (factors : List Int) (factor : Int) :
    product (factors ++ [factor]) = product factors * factor :=
  List.foldl_append

theorem product_replicate_succ (n : Nat) (a : Int) :
    product (List.replicate (n + 1) a) = product (List.replicate n a) * a := by
  rw [List.replicate_succ', product_concat]

theorem product_replicate (n : Nat) (a : Int) : product (List.replicate n a) = Int.pow a n := by
  induction n with
  | zero => exact (Int.pow_zero a).symm
  | succ n ih =>
    rw [product_replicate_succ, ih]
    exact (Int.pow_succ a n).symm

theorem product_replicate_zero (n : Nat) :
    product (List.replicate n 0) = if n = 0 then 1 else 0 := by
  cases n with
  | zero => rfl
  | succ n => rw [product_replicate_succ, Int.mul_zero, if_neg (Nat.succ_ne_zero n)]

theorem product_replicate_one (n : Nat) : product (List.replicate n 1) = 1 := by
  induction n with
  | zero => rfl
  | succ n ih => rw [product_replicate_succ, ih, Int.mul_one]

/-- The sign of a power of -1 changes with every factor. -/
theorem product_replicate_neg_one (n : Nat) :
    product (List.replicate n (-1)) = if n % 2 = 0 then 1 else -1 := by
  induction n with
  | zero => rfl
  | succ n ih =>
    rw [product_replicate_succ, ih]
    split <;> split <;> omega

theorem product_range (n : Nat) :
    product ((List.range' 1 n).map Int.ofNat) = productUpTo n := by
  induction n with
  | zero => rfl
  | succ n ih =>
    rw [List.range'_1_concat, List.map_append, List.map_singleton, product_concat, ih,
      productUpTo_succ, Int.natCast_mul, Nat.add_comm 1 n]
    rfl

/-! ## Powers and factorials -/

namespace BinaryOp

variable {limits : Limits} {a b : Int}

/-- The closed forms are products, for exponents of any size. -/
theorem applyPower_of_closed (ha : a = -1 ∨ a = 0 ∨ a = 1) (hb : 0 ≤ b) :
    applyPower limits a b = .ok (product (List.replicate b.toNat a)) := by
  rw [applyPower_eq, if_neg (Int.not_lt.mpr hb)]
  rcases ha with rfl | rfl | rfl
  · have hparity : b % 2 = 0 ↔ b.toNat % 2 = 0 := by omega
    simp [product_replicate_neg_one, hparity]
  · have hexponent : b = 0 ↔ b.toNat = 0 := by omega
    simp [product_replicate_zero, hexponent]
  · simp [product_replicate_one]

theorem applyPower_of_open (ha : ¬ (a = -1 ∨ a = 0 ∨ a = 1)) (hb : 0 ≤ b) :
    applyPower limits a b =
      if limits.maxExponent.toNat < b then
        .error (.exponentTooLarge b limits.maxExponent.toNat)
      else .ok (product (List.replicate b.toNat a)) := by
  rw [not_or, not_or] at ha
  rw [applyPower_eq, if_neg (Int.not_lt.mpr hb), if_neg ha.2.1, if_neg ha.2.2, if_neg ha.1,
    product_replicate]

/-- A power is refused for the sign of its exponent, or for its size where the base has no closed
form; else it is a product. -/
theorem apply_pow_cases (limits : Limits) (a b : Int) :
    b < 0 ∧ pow.apply limits a b = .error (.negativeExponent b) ∨
    (0 ≤ b ∧ ¬ (a = -1 ∨ a = 0 ∨ a = 1) ∧ limits.maxExponent.toNat < b) ∧
      pow.apply limits a b = .error (.exponentTooLarge b limits.maxExponent.toNat) ∨
    (0 ≤ b ∧ ((a = -1 ∨ a = 0 ∨ a = 1) ∨ b ≤ limits.maxExponent.toNat)) ∧
      pow.apply limits a b = .ok (product (List.replicate b.toNat a)) := by
  by_cases hneg : b < 0
  · refine .inl ⟨hneg, ?_⟩
    rw [apply, applyPower_eq, if_pos hneg]
  have hb := Int.not_lt.mp hneg
  by_cases ha : a = -1 ∨ a = 0 ∨ a = 1
  · exact .inr (.inr ⟨⟨hb, .inl ha⟩, applyPower_of_closed ha hb⟩)
  by_cases hlarge : limits.maxExponent.toNat < b
  · refine .inr (.inl ⟨⟨hb, ha, hlarge⟩, ?_⟩)
    rw [apply, applyPower_of_open ha hb, if_pos hlarge]
  · refine .inr (.inr ⟨⟨hb, .inr (Int.not_lt.mp hlarge)⟩, ?_⟩)
    rw [apply, applyPower_of_open ha hb, if_neg hlarge]

end BinaryOp

namespace UnaryOp

theorem apply_factorial_cases (limits : Limits) (n : Int) :
    n < 0 ∧ factorial.apply limits n = .error (.negativeFactorial n) ∨
    limits.maxFactorial.toNat < n ∧
      factorial.apply limits n = .error (.factorialTooLarge n limits.maxFactorial.toNat) ∨
    (0 ≤ n ∧ n ≤ limits.maxFactorial.toNat) ∧
      factorial.apply limits n = .ok (product ((List.range' 1 n.toNat).map Int.ofNat)) := by
  rw [apply, applyFactorial_eq, product_range]
  by_cases hneg : n < 0
  · exact .inl ⟨hneg, if_pos hneg⟩
  rw [if_neg hneg]
  by_cases hlarge : limits.maxFactorial.toNat < n
  · exact .inr (.inl ⟨hlarge, if_pos hlarge⟩)
  · exact .inr (.inr ⟨⟨Int.not_lt.mp hneg, Int.not_lt.mp hlarge⟩, if_neg hlarge⟩)

end UnaryOp

/-- The conditions of three outcomes exclude each other, so each outcome tells its condition. -/
theorem outcomes_of_cases {x : Except EvalError Int} {p q r : Prop} {err₁ err₂ : EvalError}
    {value : Int} (h : p ∧ x = .error err₁ ∨ q ∧ x = .error err₂ ∨ r ∧ x = .ok value)
    (hpq : ¬ (p ∧ q)) (hpr : ¬ (p ∧ r)) (hqr : ¬ (q ∧ r)) :
    (∀ v, x = .ok v ↔ r ∧ v = value) ∧
      ∀ err, x = .error err ↔ p ∧ err = err₁ ∨ q ∧ err = err₂ := by
  rcases h with ⟨hp, rfl⟩ | ⟨hq, rfl⟩ | ⟨hr, rfl⟩
  · have hq : ¬ q := fun hq => hpq ⟨hp, hq⟩
    have hr : ¬ r := fun hr => hpr ⟨hp, hr⟩
    simp [hp, hq, hr, eq_comm]
  · have hp : ¬ p := fun hp => hpq ⟨hp, hq⟩
    have hr : ¬ r := fun hr => hqr ⟨hq, hr⟩
    simp [hp, hq, hr, eq_comm]
  · have hp : ¬ p := fun hp => hpr ⟨hp, hr⟩
    have hq : ¬ q := fun hq => hqr ⟨hq, hr⟩
    simp [hp, hq, hr, eq_comm]

/-- **Operators are exact, and fail exactly when they should.** Quotient and remainder are the
numbers of floor division, and fail for the divisor 0 only. A power fails for a negative exponent,
or for one above the bound if the base is not -1, 0 or 1; else it is the product of as many equal
factors. A factorial fails for a negative operand or one above the bound; else it is the product of
the numbers up to its operand. No case depends on whether an operand fits into a word. -/
theorem operators_exact (limits : Limits) (a b : Int) :
    ((∀ q r, BinaryOp.div.apply limits a b = .ok q ∧ BinaryOp.mod.apply limits a b = .ok r ↔
        FloorDivides a b q r) ∧
      (∀ err, BinaryOp.div.apply limits a b = .error err ↔ b = 0 ∧ err = .divisionByZero) ∧
      ∀ err, BinaryOp.mod.apply limits a b = .error err ↔ b = 0 ∧ err = .moduloByZero) ∧
    ((∀ v, BinaryOp.pow.apply limits a b = .ok v ↔
        (0 ≤ b ∧ ((a = -1 ∨ a = 0 ∨ a = 1) ∨ b ≤ limits.maxExponent.toNat)) ∧
          v = product (List.replicate b.toNat a)) ∧
      ∀ err, BinaryOp.pow.apply limits a b = .error err ↔
        b < 0 ∧ err = .negativeExponent b ∨
        (0 ≤ b ∧ ¬ (a = -1 ∨ a = 0 ∨ a = 1) ∧ limits.maxExponent.toNat < b) ∧
          err = .exponentTooLarge b limits.maxExponent.toNat) ∧
    (∀ v, UnaryOp.factorial.apply limits a = .ok v ↔
        (0 ≤ a ∧ a ≤ limits.maxFactorial.toNat) ∧
          v = product ((List.range' 1 a.toNat).map Int.ofNat)) ∧
      ∀ err, UnaryOp.factorial.apply limits a = .error err ↔
        a < 0 ∧ err = .negativeFactorial a ∨
        limits.maxFactorial.toNat < a ∧
          err = .factorialTooLarge a limits.maxFactorial.toNat := by
  refine ⟨⟨fun q r => ?_, fun err => ?_, fun err => ?_⟩, ?_, ?_⟩
  · exact BinaryOp.apply_div_mod_eq_ok
  · exact refuses_zero_iff
  · exact refuses_zero_iff
  · exact outcomes_of_cases (BinaryOp.apply_pow_cases limits a b) (by omega) (by omega) (by omega)
  · exact outcomes_of_cases (UnaryOp.apply_factorial_cases limits a) (by omega) (by omega)
      (by omega)

-- the closed forms take exponents that no bound admits and no word holds
example :
    BinaryOp.pow.apply { maxExponent := 2 } (-1) 18446744073709551617 = .ok (-1) ∧
      BinaryOp.pow.apply { maxExponent := 2 } 2 18446744073709551617 =
        .error (.exponentTooLarge 18446744073709551617 2) :=
  ⟨rfl, rfl⟩

end Reckon
