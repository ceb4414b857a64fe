/-!
# Taking characters off the front of a text

Readers consume a text from its front, and end because what is left is shorter.

* `length_lt_of_dropWhile`, `length_lt_of_eq`: what stands behind the first characters of a part is
  shorter than the whole.
* `lex_of_lt`, `lex_of_le`: the orders by which readers that call each other end.
-/

namespace Reckon.Front

theorem length_lt_cons (c : Char) (cs : List Char) : cs.length < (c :: cs).length :=
  Nat.lt_succ_self _

theorem length_drop_lt_cons (c : Char) (cs : List Char) (n : Nat) :
    (cs.drop n).length < (c :: cs).length := by
  rw [List.length_drop, List.length_cons]
  omega

theorem length_dropWhile_le (p : Char → Bool) (cs : List Char) :
    (cs.dropWhile p).length ≤ cs.length :=
  (List.dropWhile_suffix p).length_le

theorem length_dropWhile_lt_cons (p : Char → Bool) (c : Char) (cs : List Char) :
    (cs.dropWhile p).length < (c :: cs).length :=
  Nat.lt_succ_of_le (length_dropWhile_le p cs)

/-- What stands behind the items that are dropped and one more is shorter than the list. -/
theorem length_lt_of_dropWhile {α : Type} {p : α → Bool} {x : α} {xs rest : List α}
    (h : xs.dropWhile p = x :: rest) : rest.length < xs.length := by
  have hle := (List.dropWhile_suffix (l := xs) p).length_le
  rwa [h, List.length_cons] at hle

/-- What stands behind a first character, and `front` after it, is shorter than the text that all
this is no longer than. -/
theorem length_lt_of_eq {cs ds rest : List Char} {c : Char} (front : List Char)
    (h : ds = c :: (front ++ rest)) (hle : ds.length ≤ cs.length) : rest.length < cs.length := by
  subst h
  rw [List.length_cons, List.length_append] at hle
  omega

theorem lex_of_lt {m n a b : Nat} (h : m < n) :
    Prod.Lex (· < ·) (· < ·) (m, a) (n, b) :=
  Prod.Lex.left a b h

theorem lex_of_le {m n : Nat} (h : m ≤ n) : Prod.Lex (· < ·) (· < ·) (m, 0) (n, 1) := by
  rcases Nat.lt_or_eq_of_le h with hlt | heq
  · exact Prod.Lex.left 0 1 hlt
  · subst heq
    exact Prod.Lex.right m Nat.zero_lt_one

end Reckon.Front
