import LoadTest.Scenario.Normal
import Mathlib.Tactic.Common

/-!
# The normal form of joined texts

Comments are found from left to right, and whether a capital sigma is final depends on the letters
around it. A text that normalizes does so the same way within another one, as long as what stands
around it neither belongs to a marker nor to a word.
-/

namespace LoadTest

open Text

/-! ### Comments -/

/-- A character that no marker begins with is kept outside of comments. -/
lemma dropComments_cons {c : Char} {s : List Char} (h : c = '#' → s.head? ≠ some '#') :
    dropComments false (c :: s) = (dropComments false s).map (c :: ·) := by
  rw [dropComments]
  rintro t rfl rfl
  exact h rfl rfl

/-- Inside of comments it is passed over. -/
lemma dropComments_true_cons {c : Char} {s : List Char} (h : c = '#' → s.head? ≠ some '#') :
    dropComments true (c :: s) = dropComments true s := by
  rw [dropComments]
  rintro t rfl rfl
  exact h rfl rfl

lemma dropComments_append_of_not_mem {p : List Char} (hp : '#' ∉ p) (s : List Char) :
    dropComments false (p ++ s) = (dropComments false s).map (p ++ ·) := by
  induction p with
  | nil => simp
  | cons c p ih =>
    obtain ⟨hc, hp⟩ := not_or.1 (List.mem_cons.not.1 hp)
    rw [List.cons_append, dropComments_cons fun h => absurd h.symm hc, ih hp, Option.map_map]
    rfl

/-- What follows a text is read on its own once all comments of the text are closed, unless a marker
stands across the two. -/
lemma dropComments_append {inside : Bool} {s t r : List Char}
    (h : dropComments inside s = some t) (hr : t.getLast? = some '#' → r.head? ≠ some '#') :
    dropComments inside (s ++ r) = (dropComments false r).map (t ++ ·) := by
  have hmark : ∀ {c : Char} {s : List Char}, (∀ s', c = '#' → s = '#' :: s' → False) →
      (s = [] → c = '#' → r.head? ≠ some '#') → c = '#' → (s ++ r).head? ≠ some '#' := by
    intro c s hs hend hc
    cases s with
    | nil => exact hend rfl hc
    | cons x s =>
      rintro ⟨⟩
      exact hs s hc rfl
  fun_induction dropComments inside s generalizing t with
  | case1 inside s ih => rw [List.cons_append, List.cons_append, dropComments, ih h hr]
  | case2 c s hs ih =>
    obtain ⟨t, ht, rfl⟩ := Option.map_eq_some_iff.1 h
    have hend : s = [] → c = '#' → r.head? ≠ some '#' := by
      rintro rfl rfl
      cases ht
      exact hr rfl
    have hr' : t.getLast? = some '#' → r.head? ≠ some '#' := fun hlast =>
      hr (by simp [List.getLast?_cons, hlast])
    rw [List.cons_append, dropComments_cons (hmark hs hend), ih ht hr', Option.map_map]
    rfl
  | case3 c s hs ih =>
    have hend : s = [] → c = '#' → r.head? ≠ some '#' := by
      rintro rfl
      cases h
    rw [List.cons_append, dropComments_true_cons (hmark hs hend), ih h hr]
  | case4 =>
    cases h
    simp
  | case5 => cases h

/-! ### Lower case -/

/-- A character that ends words: no letter, and not passed over within a word. -/
def Text.EndsWords (c : Char) : Prop := isCased c = false ∧ isCaseIgnorable c = false

lemma endsWords_brace : EndsWords '\x7b' ∧ EndsWords '\x7d' := by
  refine ⟨⟨?_, ?_⟩, ?_, ?_⟩ <;> decide +kernel

lemma meetsCased_append {c : Char} (hc : EndsWords c) (s t : List Char) :
    meetsCased (s ++ c :: t) = meetsCased s := by
  induction s with
  | nil => simp [meetsCased, hc.1, hc.2]
  | cons x s ih =>
    cases hx : isCaseIgnorable x with
    | true => simpa [meetsCased, hx] using ih
    | false => simp [meetsCased, hx]

/-- What stands before the end of a word does not matter to the words after it. -/
lemma lowerAfter_endsWords {c : Char} (hc : EndsWords c) (before before' s : List Char) :
    lowerAfter (before ++ c :: before') s = lowerAfter before s := by
  induction s generalizing before with
  | nil => rfl
  | cons x s ih =>
    have hsigma : sigmaAt (before ++ c :: before') s = sigmaAt before s := by
      rw [sigmaAt, meetsCased_append hc, sigmaAt]
    rw [lowerAfter, hsigma, ← List.cons_append, ih, lowerAfter]

/-- Nor does what stands after it matter to the words before it. -/
lemma lowerAfter_append {c : Char} (hc : EndsWords c) (before s t : List Char) :
    lowerAfter before (s ++ c :: t) =
      lowerAfter before s ++ lowerAfter (s.reverse ++ before) (c :: t) := by
  induction s generalizing before with
  | nil => rfl
  | cons x s ih =>
    have hsigma : sigmaAt before (s ++ c :: t) = sigmaAt before s := by
      rw [sigmaAt, meetsCased_append hc, sigmaAt]
    have hreverse : (x :: s).reverse ++ before = s.reverse ++ x :: before := by simp
    simp only [List.cons_append, lowerAfter, hsigma, ih, hreverse, List.append_assoc]

/-- Without a sigma every character is mapped on its own. -/
lemma lowerAfter_of_not_mem {s : List Char} (h : 'Σ' ∉ s) (before : List Char) :
    lowerAfter before s = s.flatMap lowerChar := by
  induction s generalizing before with
  | nil => rfl
  | cons c s ih =>
    obtain ⟨hc, hs⟩ := not_or.1 (List.mem_cons.not.1 h)
    rw [lowerAfter, if_neg (Ne.symm hc), ih hs, List.flatMap_cons]

/-- The lower case of a text in two parts, when a word ends with the first. -/
lemma lower_append {c : Char} (hc : EndsWords c) (s t : List Char) :
    lower ((s ++ [c]) ++ t) = lower (s ++ [c]) ++ lower t := by
  have hsigma : c ≠ 'Σ' := by
    rintro rfl
    exact absurd hc.1 (by decide +kernel)
  have hrest : lowerAfter (c :: s.reverse) t = lower t := lowerAfter_endsWords hc [] s.reverse t
  rw [List.append_assoc, List.singleton_append, lower, lower, lowerAfter_append hc,
    lowerAfter_append hc, List.append_nil]
  simp [lowerAfter, hsigma, hrest]

/-- The number of a character is the code point it was made from, if that is one at all. -/
lemma toNat_ofNat_eq (n : Nat) : (Char.ofNat n).toNat = n ∨ (Char.ofNat n).toNat = 0 := by
  by_cases h : n.isValidChar
  · left
    rw [Char.ofNat, dif_pos h]
    rfl
  · right
    rw [Char.ofNat, dif_neg h]
    rfl

/-- No capital beyond ASCII has a small letter within, but for the sign of the kelvin. -/
lemma shift_caseRuns : ∀ r ∈ caseRuns, 0x80 ≤ r.last →
    0x80 ≤ (r.first : Int) + r.shift ∨ r = ⟨0x212A, 0x212A, 1, -8383⟩ := by
  decide +kernel

/-- Among ASCII only the small letters come from other characters. -/
lemma eq_of_mem_lowerChar {c x : Char} (hx : x ∈ lowerChar c) (hpos : 0 < x.toNat)
    (hascii : x.toNat < 0x80) (hletter : x.toNat < 0x61 ∨ 0x7A < x.toNat) : x = c := by
  rw [lowerChar] at hx
  split_ifs at hx with hc hcapital hi
  · obtain rfl := List.mem_singleton.1 hx
    simp only [Bool.and_eq_true, decide_eq_true_eq] at hcapital
    have hnumber := toNat_ofNat_eq (c.toNat + 0x20)
    omega
  · exact List.mem_singleton.1 hx
  · simp only [List.mem_cons, List.not_mem_nil, or_false] at hx
    rcases hx with rfl | rfl
    · exact absurd hletter (by decide)
    · exact absurd hascii (by decide)
  · split at hx
    next r hr =>
      obtain rfl := List.mem_singleton.1 hx
      have hcovers := List.find?_some hr
      simp only [CaseRun.covers, Bool.and_eq_true, decide_eq_true_eq] at hcovers
      have hnumber := toNat_ofNat_eq (c.toNat + r.shift).toNat
      obtain hshift | rfl := shift_caseRuns r (List.mem_of_find?_eq_some hr) (by omega)
      · omega
      · dsimp only at hcovers hnumber hpos hletter
        omega
    next => exact List.mem_singleton.1 hx

lemma lowerChar_ne_nil (c : Char) : lowerChar c ≠ [] := by
  rw [lowerChar]
  split_ifs
  · simp
  · simp
  · simp
  · split <;> simp

lemma lowerAfter_ne_nil {s : List Char} (hs : s ≠ []) (before : List Char) :
    lowerAfter before s ≠ [] := by
  cases s with
  | nil => exact absurd rfl hs
  | cons c s =>
    rw [lowerAfter]
    split_ifs <;> simp [lowerChar_ne_nil]

/-- What ends statements, a semicolon or a brace. -/
def IsTerminator (c : Char) : Prop := c = ';' ∨ c = '\x7d'

lemma IsTerminator.endsWords {c : Char} (hc : IsTerminator c) : EndsWords c := by
  rcases hc with rfl | rfl
  · constructor <;> decide +kernel
  · exact endsWords_brace.2

lemma IsTerminator.ne_marker {c : Char} (hc : IsTerminator c) : c ≠ '#' := by
  rcases hc with rfl | rfl <;> decide

/-- A text whose lower case ends a statement does so itself. -/
lemma getLast?_of_lowerAfter {c : Char} (hc : IsTerminator c) {before s : List Char}
    (h : (lowerAfter before s).getLast? = some c) : s.getLast? = some c := by
  induction s generalizing before with
  | nil => exact absurd h (by simp [lowerAfter])
  | cons x s ih =>
    by_cases hs : s = []
    · subst hs
      have hmem : c ∈ lowerAfter before [x] := List.mem_of_getLast? h
      rw [lowerAfter, lowerAfter, List.append_nil] at hmem
      split_ifs at hmem with hx
      · rw [sigmaAt] at hmem
        rcases hc with rfl | rfl <;> split_ifs at hmem <;> simp at hmem
      · have hxc : c = x := by
          rcases hc with rfl | rfl <;>
            exact eq_of_mem_lowerChar hmem (by decide) (by decide) (by decide)
        simp [hxc]
    · obtain ⟨y, hy⟩ := Option.ne_none_iff_exists'.1
        (mt List.getLast?_eq_none_iff.1 (lowerAfter_ne_nil hs (x :: before)))
      rw [lowerAfter, List.getLast?_append, hy, Option.some_or] at h
      rw [List.getLast?_cons_of_ne_nil hs]
      exact ih (hy.trans h)

/-! ### Blocks -/

/-- Normalization leaves the character alone or maps it on its own, wherever it stands. -/
structure IsPlain (c : Char) : Prop where
  visible : isBlank c = false
  ne_marker : c ≠ '#'
  ne_sigma : c ≠ 'Σ'

instance (c : Char) : Decidable (IsPlain c) :=
  decidable_of_iff (isBlank c = false ∧ c ≠ '#' ∧ c ≠ 'Σ')
    ⟨fun ⟨h, h', h''⟩ => ⟨h, h', h''⟩, fun ⟨h, h', h''⟩ => ⟨h, h', h''⟩⟩

/-- A text in braces has the normal form that it has on its own. -/
lemma normalize_block {text body : String} {p s : List Char} (hp : ∀ c ∈ p, IsPlain c)
    (htext : text.toList = p ++ '\x7b' :: (body.toList ++ ['\x7d'])) (hs : normalize body = .ok s) :
    normalize text = .ok (p.flatMap lowerChar ++ '\x7b' :: (s ++ ['\x7d'])) := by
  obtain ⟨hopen, hclose⟩ := endsWords_brace
  rw [normalize] at hs
  split at hs
  next t ht =>
    cases hs
    have hblank : (text.toList.filter fun c => !isBlank c) =
        (p ++ ['\x7b']) ++ ((body.toList.filter fun c => !isBlank c) ++ ['\x7d']) := by
      have hkept : (p.filter fun c => !isBlank c) = p :=
        List.filter_eq_self.2 fun c hc => by simp [(hp c hc).visible]
      have hbraces : isBlank '\x7b' = false ∧ isBlank '\x7d' = false := by decide
      simp [htext, hkept, hbraces.1, hbraces.2]
    have hcomments : dropComments false (text.toList.filter fun c => !isBlank c) =
        some (p ++ '\x7b' :: (t ++ ['\x7d'])) := by
      have hmarker : '#' ∉ p ++ ['\x7b'] := by
        simpa using fun h => (hp '#' h).ne_marker rfl
      rw [hblank, dropComments_append_of_not_mem hmarker, dropComments_append ht (by simp)]
      simp [dropComments]
    have hlower : lower (p ++ '\x7b' :: (t ++ ['\x7d'])) =
        p.flatMap lowerChar ++ '\x7b' :: (lower t ++ ['\x7d']) := by
      have hbraces : lowerChar '\x7b' = ['\x7b'] ∧ lowerChar '\x7d' = ['\x7d'] := by decide
      have hinner : ∀ before,
          lowerAfter ('\x7b' :: before) (t ++ ['\x7d']) = lower t ++ ['\x7d'] := by
        intro before
        rw [← List.nil_append ('\x7b' :: before), lowerAfter_endsWords hopen,
          lowerAfter_append hclose]
        simp [lowerAfter, hbraces.2, lower]
      rw [lower, lowerAfter_append hopen, lowerAfter_of_not_mem fun h => (hp 'Σ' h).ne_sigma rfl,
        lowerAfter, hinner]
      simp [hbraces.1]
    rw [normalize, hcomments]
    simp only
    rw [hlower]
  next => cases hs

end LoadTest
