/-!
# Decimal text of integers

Integers are written in base ten without leading zeros, with a minus sign in front of a negative
one. Reading is more generous: leading zeros are allowed.

* `value_digits`, `intOf?_chars`: reading the text of a number gives the number back.
* `isDigit_of_mem_digits`: the text of a number holds digits only.
-/

namespace Reckon.Decimal

/-- The digits of a number, most significant first; zero has one digit. -/
def digits (n : Nat) : List Char :=
  Nat.toDigits 10 n

/-- The number that a row of digits stands for, leading zeros included. -/
def value (ds : List Char) : Nat :=
  Nat.ofDigitChars 10 ds 0

/-- The characters of an integer. -/
def chars : Int → List Char
  | .ofNat n => digits n
  | .negSucc n => '-' :: digits (n + 1)

/-- The text of an integer. -/
def text (n : Int) : String :=
  String.ofList (chars n)

/-- The text of a natural number. -/
def natText (n : Nat) : String :=
  String.ofList (digits n)

/-- Reads a nonempty row of digits. -/
def natOf? (ds : List Char) : Option Nat :=
  if !ds.isEmpty && ds.all Char.isDigit then some (value ds) else none

/-- Reads a nonempty row of digits with an optional minus sign. -/
def intOf? : List Char → Option Int
  | '-' :: ds => (natOf? ds).map fun n => -(n : Int)
  | ds => (natOf? ds).map Int.ofNat

@[simp] theorem value_digits (n : Nat) : value (digits n) = n :=
  Nat.ofDigitChars_toDigits (by decide) (by decide)

theorem isDigit_of_mem_digits {n : Nat} {c : Char} (h : c ∈ digits n) : c.isDigit = true :=
  Nat.isDigit_of_mem_toDigits (by decide) (by decide) h

theorem digits_ne_nil (n : Nat) : digits n ≠ [] := by
  rw [digits, Nat.toDigits_eq_if (by decide)]
  split <;> simp

@[simp] theorem toList_text (n : Int) : (text n).toList = chars n :=
  String.toList_ofList

@[simp] theorem natOf?_digits (n : Nat) : natOf? (digits n) = some n := by
  have hne : (digits n).isEmpty = false := by simpa using digits_ne_nil n
  have hall : (digits n).all Char.isDigit = true :=
    List.all_eq_true.2 fun _ hc => isDigit_of_mem_digits hc
  simp [natOf?, hne, hall]

theorem isDigit_or_minus_of_mem_chars {n : Int} {c : Char} (h : c ∈ chars n) :
    c.isDigit = true ∨ c = '-' := by
  cases n with
  | ofNat n => exact .inl (isDigit_of_mem_digits h)
  | negSucc n =>
    rcases List.mem_cons.mp h with rfl | h
    · exact .inr rfl
    · exact .inl (isDigit_of_mem_digits h)

@[simp] theorem intOf?_chars (n : Int) : intOf? (chars n) = some n := by
  cases n with
  | ofNat n =>
    rw [chars, intOf?]
    · rw [natOf?_digits]
      rfl
    · -- the digits of a number do not start with a minus sign
      intro ds h
      have hminus : ('-' : Char).isDigit = true :=
        isDigit_of_mem_digits (h ▸ List.mem_cons_self)
      exact absurd hminus (by decide)
  | negSucc n =>
    rw [chars, intOf?, natOf?_digits]
    rfl

theorem chars_injective {m n : Int} (h : chars m = chars n) : m = n := by
  have hm := intOf?_chars m
  rw [h, intOf?_chars] at hm
  exact (Option.some.inj hm).symm

end Reckon.Decimal
