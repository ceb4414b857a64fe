import Reckon.Text.Front

/-!
# Lines of a byte stream

A stream of bytes is cut into lines at newlines. A line that ends in a newline loses it, and one
carriage return in front of it; the bytes after the last newline are a line if there are any.

* `split_nil`, `split_line`, `split_last`: the lines of a stream, one after the other.
-/

namespace Reckon.Lines

def newline : UInt8 := 10

def carriageReturn : UInt8 := 13

/-- A line without one carriage return at its end. -/
def dropReturn (line : List UInt8) : List UInt8 :=
  if line.getLast? = some carriageReturn then line.dropLast else line

/-- Whether a byte belongs to a line. -/
def isInside (b : UInt8) : Bool :=
  b != newline

/-- The lines of a stream. -/
def split (bytes : List UInt8) : List (List UInt8) :=
  if bytes.isEmpty then []
  else
    match _h : bytes.dropWhile isInside with
    | [] => [bytes.takeWhile isInside]
    | _ :: rest => dropReturn (bytes.takeWhile isInside) :: split rest
termination_by bytes.length
decreasing_by exact Front.length_lt_of_dropWhile _h

/-- The text of a line, unless its bytes are not UTF-8. -/
def text? (line : List UInt8) : Option String :=
  String.fromUTF8? ⟨line.toArray⟩

@[simp] theorem split_nil : split [] = [] := by
  rw [split]
  rfl

theorem split_of_dropWhile {bytes rest : List UInt8} {b : UInt8}
    (h : bytes.dropWhile isInside = b :: rest) :
    split bytes = dropReturn (bytes.takeWhile isInside) :: split rest := by
  have hne : bytes.isEmpty = false := by
    cases bytes with
    | nil => cases h
    | cons a as => rfl
  rw [split, hne, if_neg Bool.false_ne_true]
  split
  · next h' => rw [h] at h'; cases h'
  · next h' => rw [h] at h'; cases h'; rfl

theorem isInside_of_mem {line : List UInt8} (h : newline ∉ line) :
    ∀ b ∈ line, isInside b = true := by
  intro b hb
  rw [isInside, bne_iff_ne]
  exact fun heq => h (heq ▸ hb)

/-- A line up to its newline, and the lines after it. -/
theorem split_line {line : List UInt8} (h : newline ∉ line) (rest : List UInt8) :
    split (line ++ newline :: rest) = dropReturn line :: split rest := by
  have hdrop : (line ++ newline :: rest).dropWhile isInside = newline :: rest :=
    List.dropWhile_append_of_pos (isInside_of_mem h)
  have htake : (line ++ newline :: rest).takeWhile isInside = line := by
    rw [List.takeWhile_append_of_pos (isInside_of_mem h)]
    exact List.append_nil line
  rw [split_of_dropWhile hdrop, htake]

/-- What stands behind the last newline is a line as it is. -/
theorem split_last {line : List UInt8} (h : newline ∉ line) (hne : line ≠ []) :
    split line = [line] := by
  have hdrop : (line ++ []).dropWhile isInside = [] :=
    List.dropWhile_append_of_pos (isInside_of_mem h)
  have htake : (line ++ []).takeWhile isInside = line ++ [] :=
    List.takeWhile_append_of_pos (isInside_of_mem h)
  rw [List.append_nil] at hdrop htake
  have hempty : line.isEmpty = false := by
    cases line with
    | nil => exact absurd rfl hne
    | cons b bs => rfl
  rw [split, hempty, if_neg Bool.false_ne_true]
  split
  · rw [htake]
  · next h' => rw [hdrop] at h'; cases h'

end Reckon.Lines
