/-!
# Splitting a text

Cutting a text at the first occurrence of a character, and at all of them. The lemmas say that a cut
loses nothing and that it is the first one.
-/

namespace LoadTest.Text

/-- The text before the first `c`, and the text after it. -/
def splitAtFirst (c : Char) : List Char → Option (List Char × List Char)
  | [] => none
  | x :: s => if x = c then some ([], s) else (splitAtFirst c s).map fun p => (x :: p.1, p.2)

theorem splitAtFirst_eq_some {c : Char} {s a b : List Char} :
    splitAtFirst c s = some (a, b) ↔ s = a ++ c :: b ∧ c ∉ a := by
  induction s generalizing a with
  | nil => simp [splitAtFirst]
  | cons x s ih =>
    by_cases hx : x = c
    · cases a <;> grind [splitAtFirst]
    · cases a with
      | nil => simp [splitAtFirst, hx]
      | cons y a => simp [splitAtFirst, hx]; grind

theorem splitAtFirst_eq_none {c : Char} {s : List Char} : splitAtFirst c s = none ↔ c ∉ s := by
  induction s with
  | nil => simp [splitAtFirst]
  | cons x s ih =>
    by_cases hx : x = c
    · simp [splitAtFirst, hx]
    · have hc : c ≠ x := fun h => hx h.symm
      simp [splitAtFirst, hx, hc, Option.map_eq_none_iff, ih]

/-- The pieces between the occurrences of `c`: one more than there are occurrences. -/
def splitAtAll (c : Char) : List Char → List (List Char)
  | [] => [[]]
  | x :: s =>
    if x = c then [] :: splitAtAll c s
    else
      match splitAtAll c s with
      | [] => [[x]]
      | p :: ps => (x :: p) :: ps

theorem splitAtAll_ne_nil (c : Char) (s : List Char) : splitAtAll c s ≠ [] := by
  cases s with
  | nil => simp [splitAtAll]
  | cons x s =>
    simp only [splitAtAll]
    split
    · simp
    · split <;> simp

end LoadTest.Text
