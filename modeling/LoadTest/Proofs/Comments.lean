import LoadTest.Proofs.Layout
import LoadTest.Proofs.SmallLetters

/-!
# Comments and what is left without them

The markers of a text cut it into pieces, and there is one way only to cut it. Every other piece is
outside of comments. No two signs of a marker meet where a comment has been: a piece in front of a
marker does not end with such a sign, or else the marker would have been found one character before.
So the normal form has no marker within, and it is its own normal form.
-/

namespace LoadTest

open Text

/-- The pieces of a text between its markers, which are found from left to right: a piece goes up to
the first marker, and the search starts again behind that. -/
inductive Cut : List Char → List (List Char) → Prop
  | last {s : List Char} (h : ¬ ['#', '#'] <:+: s) : Cut s [s]
  | marker {p s : List Char} {pieces : List (List Char)} (h : ¬ ['#', '#'] <:+: p ++ ['#'])
      (hs : Cut s pieces) : Cut (p ++ '#' :: '#' :: s) (p :: pieces)

/-- The pieces outside of comments: every other one, from the first one on. -/
def outside : List (List Char) → List (List Char)
  | p :: _ :: pieces => p :: outside pieces
  | pieces => pieces

/-! ### Markers -/

lemma marker_infix_cons {c : Char} {s : List Char} :
    ['#', '#'] <:+: c :: s ↔ c = '#' ∧ s.head? = some '#' ∨ ['#', '#'] <:+: s := by
  rw [List.infix_cons_iff, List.cons_prefix_cons, eq_comm]
  cases s with
  | nil => simp
  | cons x s => simp [List.cons_prefix_cons, eq_comm]

/-- Neither within a piece nor at its end does one sign of a marker follow another. -/
lemma head?_append_of_not_marker {c : Char} {p : List Char}
    (h : ¬ ['#', '#'] <:+: c :: (p ++ ['#'])) (s : List Char) :
    c = '#' → (p ++ '#' :: s).head? ≠ some '#' := by
  rintro rfl hhead
  refine h (marker_infix_cons.2 (.inl ⟨rfl, ?_⟩))
  cases p <;> exact hhead

/-- A marker that begins with the end of the one text ends with the beginning of the other. -/
lemma not_marker_infix_append {p s : List Char} (hp : ¬ ['#', '#'] <:+: p)
    (hmeet : p.getLast? = some '#' → s.head? ≠ some '#') (hs : ¬ ['#', '#'] <:+: s) :
    ¬ ['#', '#'] <:+: p ++ s := by
  induction p with
  | nil => exact hs
  | cons c p ih =>
    rw [marker_infix_cons, not_or] at hp
    have hmeet' : p.getLast? = some '#' → s.head? ≠ some '#' := fun h =>
      hmeet (by rw [List.getLast?_cons, h, Option.getD_some])
    rw [List.cons_append, marker_infix_cons, not_or]
    refine ⟨?_, ih hp.2 hmeet'⟩
    rintro ⟨rfl, hhead⟩
    cases p with
    | nil => exact hmeet rfl hhead
    | cons x p => exact hp.1 ⟨rfl, hhead⟩

/-- A piece in front of a marker does not end with the sign of one. -/
lemma not_marker_infix_piece {p : List Char} (h : ¬ ['#', '#'] <:+: p ++ ['#']) :
    ¬ ['#', '#'] <:+: p ∧ p.getLast? ≠ some '#' := by
  refine ⟨fun hm => h (hm.trans (List.prefix_append _ _).isInfix), fun hlast => ?_⟩
  obtain ⟨q, rfl⟩ := List.getLast?_eq_some_iff.1 hlast
  exact h ⟨q, [], by simp⟩

/-- Lower case makes no markers and breaks none. -/
lemma marker_infix_lowerAfter {before s : List Char} :
    ['#', '#'] <:+: lowerAfter before s ↔ ['#', '#'] <:+: s := by
  have happend : ∀ {p : List Char}, '#' ∉ p → ∀ t : List Char,
      ['#', '#'] <:+: p ++ t ↔ ['#', '#'] <:+: t := by
    intro p hp t
    induction p with
    | nil => rfl
    | cons c p ih =>
      obtain ⟨hc, hp⟩ := not_or.1 (List.mem_cons.not.1 hp)
      rw [List.cons_append, marker_infix_cons, ih hp, or_iff_right fun h => hc h.1.symm]
  induction s generalizing before with
  | nil => rfl
  | cons c s ih =>
    have hrest : ['#', '#'] <:+: lowerAfter (c :: before) s ↔ ['#', '#'] <:+: s := ih
    by_cases hc : c = '#'
    · subst hc
      rw [lowerAfter_cons, caseless_marker.imageAt_self, List.singleton_append, marker_infix_cons,
        caseless_marker.head?_lowerAfter, hrest, marker_infix_cons]
    · have himage : '#' ∉ imageAt before s c := fun h => hc (caseless_marker.mem_imageAt.1 h)
      rw [lowerAfter_cons, happend himage, hrest, marker_infix_cons,
        or_iff_right fun h => hc h.1]

/-! ### Cutting a text -/

lemma stretches_cons {c : Char} {s : List Char} (h : c = '#' → s.head? ≠ some '#') :
    stretches (c :: s) = (stretches s).modifyHead (c :: ·) := by
  rw [stretches]
  rintro t rfl rfl
  exact h rfl rfl

namespace Cut

variable {s : List Char} {pieces : List (List Char)}

lemma cons {c : Char} (h : Cut s pieces) (hc : c = '#' → s.head? ≠ some '#') :
    Cut (c :: s) (pieces.modifyHead (c :: ·)) := by
  cases h with
  | last h =>
    refine .last ?_
    rw [marker_infix_cons, not_or]
    exact ⟨fun hm => hc hm.1 hm.2, h⟩
  | @marker p s pieces h hs =>
    refine .marker (p := c :: p) ?_ hs
    rw [List.cons_append, marker_infix_cons, not_or]
    refine ⟨fun hm => hc hm.1 ?_, h⟩
    cases p <;> exact hm.2

/-- There is no other way to cut a text. -/
lemma eq_stretches (h : Cut s pieces) : pieces = stretches s := by
  induction h with
  | @last s h =>
    induction s with
    | nil => rfl
    | cons c s ih =>
      rw [marker_infix_cons, not_or] at h
      rw [stretches_cons fun hc hhead => h.1 ⟨hc, hhead⟩, ← ih h.2]
      rfl
  | @marker p s pieces h _ ih =>
    subst ih
    induction p with
    | nil => rfl
    | cons c p ih =>
      rw [List.cons_append, stretches_cons (head?_append_of_not_marker h _),
        ← ih fun hm => h (marker_infix_cons.2 (.inr hm))]
      rfl

lemma ne_nil (h : Cut s pieces) : pieces ≠ [] := by
  cases h <;> simp

end Cut

/-- Every text can be cut. -/
lemma cut_stretches (s : List Char) : Cut s (stretches s) := by
  fun_induction stretches s with
  | case1 s ih => exact .marker (p := []) (by decide) ih
  | case2 c s hs ih =>
    refine ih.cons ?_
    rintro rfl hhead
    obtain ⟨t, rfl⟩ := List.head?_eq_some_iff.1 hhead
    exact hs t rfl rfl
  | case3 => exact .last (by decide)

/-! ### What is left -/

lemma dropComments_of_not_marker {s : List Char} (h : ¬ ['#', '#'] <:+: s) :
    dropComments false s = some s ∧ dropComments true s = none := by
  induction s with
  | nil => exact ⟨rfl, rfl⟩
  | cons c s ih =>
    rw [marker_infix_cons, not_or] at h
    have hc : c = '#' → s.head? ≠ some '#' := fun hc hhead => h.1 ⟨hc, hhead⟩
    obtain ⟨hout, hin⟩ := ih h.2
    rw [dropComments_cons hc, dropComments_true_cons hc, hout, hin]
    exact ⟨rfl, rfl⟩

lemma outside_cons {p : List Char} {pieces : List (List Char)} (h : pieces ≠ []) :
    outside (p :: pieces) = p :: outside pieces.tail := by
  obtain ⟨q, pieces, rfl⟩ := List.exists_cons_of_ne_nil h
  rfl

namespace Cut

variable {s : List Char} {pieces : List (List Char)}

/-- What is outside of comments is left if the last comment is closed. A text that starts within a
comment is left from its second piece on. -/
lemma dropComments_eq (h : Cut s pieces) :
    dropComments false s =
        (if Odd pieces.length then some (outside pieces).flatten else none) ∧
      dropComments true s =
        if Even pieces.length then some (outside pieces.tail).flatten else none := by
  induction h with
  | @last s h =>
    obtain ⟨hout, hin⟩ := dropComments_of_not_marker h
    simp [hout, hin, outside]
  | @marker p s pieces h hs ih =>
    obtain ⟨hp, hlast⟩ := not_marker_infix_piece h
    obtain ⟨hout, hin⟩ := ih
    constructor
    · rw [dropComments_append (dropComments_of_not_marker hp).1 fun h => absurd h hlast,
        dropComments, Bool.not_false, hin, outside_cons hs.ne_nil]
      simp only [List.length_cons, Nat.odd_add_one, Nat.not_odd_iff_even]
      split_ifs <;> simp
    · rw [dropComments_true_append hp hlast, hout]
      simp only [List.length_cons, Nat.even_add_one, Nat.not_even_iff_odd, List.tail_cons]

/-- Outside of comments there is no marker, not even where a comment has been. -/
lemma not_marker_infix_outside (h : Cut s pieces) :
    ¬ ['#', '#'] <:+: (outside pieces).flatten ∧
      ¬ ['#', '#'] <:+: (outside pieces.tail).flatten := by
  induction h with
  | last h => exact ⟨by simpa [outside] using h, by simp [outside]⟩
  | marker h hs ih =>
    obtain ⟨hp, hlast⟩ := not_marker_infix_piece h
    obtain ⟨hout, hin⟩ := ih
    rw [outside_cons hs.ne_nil, List.flatten_cons]
    exact ⟨not_marker_infix_append hp (fun hend => absurd hend hlast) hin, hout⟩

lemma outside_sublist (h : Cut s pieces) :
    (outside pieces).flatten.Sublist s ∧ (outside pieces.tail).flatten.Sublist s := by
  induction h with
  | last => simp [outside]
  | @marker p s pieces _ hs ih =>
    have hsuffix : s.Sublist ('#' :: '#' :: s) := (List.suffix_append ['#', '#'] s).sublist
    rw [outside_cons hs.ne_nil, List.flatten_cons]
    exact ⟨.append (.refl p) (ih.2.trans hsuffix),
      ih.1.trans (hsuffix.trans (List.sublist_append_right _ _))⟩

end Cut

/-- The normal form has neither blanks nor markers, and all of it is in lower case. -/
lemma normal_of_normalize {text : String} {s : List Char} (h : normalize text = .ok s) :
    (∀ c ∈ s, isBlank c = false) ∧ ¬ ['#', '#'] <:+: s ∧ lower s = s := by
  have hcut := cut_stretches (visible text.toList)
  obtain ⟨t, ht, rfl⟩ : ∃ t, dropComments false (visible text.toList) = some t ∧ lower t = s := by
    rw [normalize_eq_elim, normalForm] at h
    cases ht : dropComments false (visible text.toList) with
    | none =>
      rw [ht] at h
      cases h
    | some t =>
      rw [ht] at h
      cases h
      exact ⟨t, rfl, rfl⟩
  obtain ⟨-, rfl⟩ : Odd _ ∧ (outside (stretches (visible text.toList))).flatten = t := by
    rw [hcut.dropComments_eq.1] at ht
    simpa using ht
  refine ⟨?_, ?_, lower_lower _⟩
  · intro c hc
    by_contra hblank
    rw [Bool.not_eq_false] at hblank
    have hmem := hcut.outside_sublist.1.subset ((Caseless.of_isBlank hblank).mem_lowerAfter.1 hc)
    simpa [hblank] using (List.mem_filter.1 hmem).2
  · exact fun hm => hcut.not_marker_infix_outside.1 (marker_infix_lowerAfter.1 hm)

/-- Without blanks and markers only the letters change. -/
lemma normalize_of_not_marker {text : String} (hblank : ∀ c ∈ text.toList, isBlank c = false)
    (hmarker : ¬ ['#', '#'] <:+: text.toList) : normalize text = .ok (lower text.toList) := by
  have hvisible : visible text.toList = text.toList :=
    List.filter_eq_self.2 fun c hc => by simp [hblank c hc]
  rw [normalize_eq_elim, normalForm, hvisible, (dropComments_of_not_marker hmarker).1]
  rfl

/-- The markers of a text are found in one way. If their number is odd, a comment is never closed;
otherwise the normal form is the lower case of what is outside of comments. There are no blanks and
no markers in it, and it is its own normal form. -/
theorem normalize_of_cut (text : String) :
    ∃ pieces markers, Cut (visible text.toList) pieces ∧ pieces.length = markers + 1 ∧
      (∀ pieces', Cut (visible text.toList) pieces' → pieces' = pieces) ∧
      (normalize text = .error .unterminatedComment ↔ Odd markers) ∧
      (∀ s, normalize text = .ok s ↔ Even markers ∧ s = lower (outside pieces).flatten) ∧
      ∀ s, normalize text = .ok s →
        (∀ c ∈ s, isBlank c = false) ∧ ¬ ['#', '#'] <:+: s ∧
          normalize (String.ofList s) = .ok s := by
  have hcut := cut_stretches (visible text.toList)
  obtain ⟨markers, hmarkers⟩ := Nat.exists_eq_succ_of_ne_zero
    (List.length_pos_iff.2 hcut.ne_nil).ne'
  have hnormal : normalize text =
      if Even markers then .ok (lower (outside (stretches (visible text.toList))).flatten)
      else .error .unterminatedComment := by
    rw [normalize_eq_elim, normalForm, hcut.dropComments_eq.1]
    simp only [hmarkers, Nat.odd_add_one, Nat.not_odd_iff_even]
    split_ifs <;> rfl
  refine ⟨_, markers, hcut, hmarkers, fun _ h => h.eq_stretches, ?_, ?_, ?_⟩
  · rw [hnormal, ← Nat.not_even_iff_odd]
    split_ifs with heven <;> simp [heven]
  · intro s
    rw [hnormal]
    split_ifs with heven <;> simp [heven, eq_comm]
  · intro s hs
    obtain ⟨hblank, hmarker, hlower⟩ := normal_of_normalize hs
    refine ⟨hblank, hmarker, ?_⟩
    rw [normalize_of_not_marker, String.toList_ofList, hlower]
    · rwa [String.toList_ofList]
    · rwa [String.toList_ofList]

/-- In a row of three signs the first two are the marker. -/
example : normalize "A###b###C" = .ok "a#c".toList := by decide +kernel

end LoadTest
