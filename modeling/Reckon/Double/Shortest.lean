/-!
# The shortest decimal of a double

A finite double other than zero is written with the fewest decimal digits that still read back as
the same double; of several such decimals the nearest is taken, and on a tie the even one.

A positive double is a binary significand times a power of two. The real numbers that round to it
fill an interval around it, with its ends if the significand is even. A decimal grid is the set of
multiples of a power of ten. The search below goes from coarse grids to fine ones and stops at the
first with a multiple in the interval; only the two multiples next to the double can be the nearest.
All comparisons are between natural numbers.
-/

namespace Reckon.Double

/-- The double `significand * 2 ^ exponent`. -/
structure Binary where
  significand : Nat
  exponent : Int
  /-- The doubles below are twice as dense as those above. -/
  denseBelow : Bool
  deriving DecidableEq, Repr

/-- The decimal `significand * 10 ^ exponent`. -/
structure Scientific where
  significand : Nat
  exponent : Int
  deriving DecidableEq, Repr

/-- The leading bit of significands, which is not stored: two to the power of 52. -/
def leadingBit : Nat := 0x10000000000000

/-- The magnitude of the finite double with the given 64 bits. -/
def Binary.ofBits (bits : Nat) : Binary :=
  let biased : Nat := bits / leadingBit % 0x800
  let fraction : Nat := bits % leadingBit
  if biased = 0 then ⟨fraction, -1074, false⟩
  else ⟨leadingBit + fraction, (biased : Int) - 1075, fraction == 0 && biased != 1⟩

/-- The multiple of `10 ^ k` that reads back as the double and is nearest to it, if there is one.
Everything is scaled so that the grid consists of the multiples of `step`. -/
def Binary.onGrid? (b : Binary) (k : Int) : Option Nat :=
  let scale := Nat.pow 10 (-k).toNat * Nat.pow 2 b.exponent.toNat
  let step := 4 * Nat.pow 10 k.toNat * Nat.pow 2 (-b.exponent).toNat
  let value := 4 * b.significand * scale
  let low := (4 * b.significand - if b.denseBelow then 1 else 2) * scale
  let high := (4 * b.significand + 2) * scale
  let reads (n : Nat) : Bool :=
    if b.significand % 2 = 0 then low ≤ n * step && n * step ≤ high
    else low < n * step && n * step < high
  let n := value / step
  match reads n, reads (n + 1) with
  | true, true =>
    let twice := 2 * (value - n * step)
    if twice < step || twice == step && n % 2 == 0 then some n else some (n + 1)
  | true, false => some n
  | false, true => some (n + 1)
  | false, false => none

/-- An exponent of ten above the magnitude of the double, and not far above it. -/
def Binary.ceiling (b : Binary) : Int :=
  (b.exponent + 53) * 30103 / 100000 + 2

/-- The shortest decimal of a positive double. Seventeen digits always suffice, so the search over
twenty-four grids finds one. -/
def Binary.shortest (b : Binary) : Scientific :=
  let found := (List.range 24).findSome? fun (i : Nat) =>
    (b.onGrid? (b.ceiling - i)).map (⟨·, b.ceiling - i⟩)
  found.getD ⟨0, 0⟩

end Reckon.Double
