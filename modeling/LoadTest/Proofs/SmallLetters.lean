import LoadTest.Proofs.NormalForm
import Mathlib.Data.List.Infix

/-!
# Small letters

No capital is the small letter of another one, so a text in lower case stays as it is when it is put
in lower case again. Blanks, the sign of the comment marker and parentheses have no case: they come
from themselves alone, and so do the markers and the blanks of a text in lower case.
-/

namespace LoadTest.Text

/-! ### The tables -/

/-- The code points that a run covers. -/
def CaseRun.letters (r : CaseRun) : List Nat :=
  (List.range ((r.last - r.first) / r.step + 1)).map fun k => r.first + r.step * k

def capitals : List Nat := caseRuns.flatMap CaseRun.letters

def smallLetters : List Nat :=
  caseRuns.flatMap fun r => r.letters.map fun n : Nat => (n + r.shift).toNat

/-- The code points of the property `White_Space`, one by one. -/
def blanks : List Nat :=
  [0x9, 0xA, 0xB, 0xC, 0xD, 0x20, 0x85, 0xA0, 0x1680, 0x2000, 0x2001, 0x2002, 0x2003, 0x2004,
    0x2005, 0x2006, 0x2007, 0x2008, 0x2009, 0x200A, 0x2028, 0x2029, 0x202F, 0x205F, 0x3000]

lemma CaseRun.mem_letters {r : CaseRun} {n : Nat} (h : r.covers n = true) : n ∈ r.letters := by
  simp only [covers, Bool.and_eq_true, decide_eq_true_eq, beq_iff_eq] at h
  obtain ⟨⟨hfirst, hlast⟩, hstep⟩ := h
  have hsteps : r.step * ((n - r.first) / r.step) = n - r.first := by
    have := Nat.div_add_mod (n - r.first) r.step
    omega
  have hle : (n - r.first) / r.step ≤ (r.last - r.first) / r.step :=
    Nat.div_le_div_right (by omega)
  exact List.mem_map.2 ⟨(n - r.first) / r.step, List.mem_range.2 (by omega), by omega⟩

lemma mem_blanks {c : Char} (h : isBlank c = true) : c.toNat ∈ blanks := by
  simp only [isBlank, Bool.or_eq_true, Bool.and_eq_true, decide_eq_true_eq, beq_iff_eq] at h
  simp only [blanks, List.mem_cons, List.not_mem_nil, or_false]
  omega

/-- A set of code points, as the bits of a number. -/
def bitsOf (ns : List Nat) : Nat := ns.foldr (fun n bits => 1 <<< n ||| bits) 0

lemma testBit_bitsOf {ns : List Nat} {n : Nat} : (bitsOf ns).testBit n = true ↔ n ∈ ns := by
  induction ns with
  | nil => simp [bitsOf]
  | cons m ns ih =>
    have hcons : bitsOf (m :: ns) = 1 <<< m ||| bitsOf ns := rfl
    have hone : (1 <<< m).testBit n = true ↔ n = m := by
      rw [Nat.one_shiftLeft, Nat.testBit_two_pow, decide_eq_true_eq, eq_comm]
    rw [hcons, Nat.testBit_or, Bool.or_eq_true, ih, hone, List.mem_cons]

/-- Sets without a bit in common have no member in common. -/
lemma not_mem_of_bitsOf {ns ms : List Nat} (h : bitsOf ns &&& bitsOf ms = 0) {n : Nat}
    (hn : n ∈ ns) : n ∉ ms := by
  intro hm
  have hbit : (bitsOf ns &&& bitsOf ms).testBit n = true := by
    rw [Nat.testBit_and, testBit_bitsOf.2 hn, testBit_bitsOf.2 hm, Bool.and_self]
  rw [h, Nat.zero_testBit] at hbit
  cases hbit

/-- Neither capitals nor blanks are what lower case makes of other characters, and no capital is a
blank. The code point 0 stands for those that are none. -/
lemma bitsOf_smallLetters :
    bitsOf (0 :: 0x307 :: smallLetters) &&& bitsOf (0x130 :: capitals) = 0 ∧
      bitsOf (0 :: 0x307 :: smallLetters) &&& bitsOf blanks = 0 ∧
      bitsOf blanks &&& bitsOf (0x130 :: capitals) = 0 := by
  decide +kernel

/-! ### Characters -/

/-- A character is left alone, or what becomes of it is small. -/
lemma eq_or_mem_of_mem_lowerChar {c x : Char} (hx : x ∈ lowerChar c) :
    x = c ∧ lowerChar c = [c] ∨ x.toNat ∈ 0 :: 0x307 :: smallLetters := by
  have hsmall : ∀ r ∈ caseRuns, ∀ n : Nat, r.covers n = true →
      (Char.ofNat (n + r.shift).toNat).toNat ∈ 0 :: 0x307 :: smallLetters := by
    intro r hr n hcovers
    obtain h | h := toNat_ofNat_eq (n + r.shift).toNat
    · rw [h]
      exact .tail _ (.tail _ (List.mem_flatMap.2
        ⟨r, hr, List.mem_map.2 ⟨n, CaseRun.mem_letters hcovers, rfl⟩⟩))
    · rw [h]
      exact .head _
  rw [lowerChar] at hx ⊢
  split_ifs at hx ⊢ with hascii hcapital hdotted
  · obtain rfl := List.mem_singleton.1 hx
    refine .inr (hsmall ⟨0x41, 0x5A, 1, 32⟩ (by decide) c.toNat ?_)
    simpa [CaseRun.covers, Nat.mod_one] using hcapital
  · exact .inl ⟨List.mem_singleton.1 hx, rfl⟩
  · simp only [List.mem_cons, List.not_mem_nil, or_false] at hx
    rcases hx with rfl | rfl
    · exact .inr (hsmall ⟨0x41, 0x5A, 1, 32⟩ (by decide) 0x49 (by decide))
    · exact .inr (.tail _ (.head _))
  · split at hx
    next r hr =>
      obtain rfl := List.mem_singleton.1 hx
      have hcovers : r.covers c.toNat = true :=
        List.find?_some (p := fun r : CaseRun => r.covers _) hr
      exact .inr (hsmall r (List.mem_of_find?_eq_some hr) _ hcovers)
    next => exact .inl ⟨List.mem_singleton.1 hx, rfl⟩

/-- What is no capital is left alone. -/
lemma lowerChar_eq_self {c : Char} (h : c.toNat ∉ 0x130 :: capitals) : lowerChar c = [c] := by
  obtain ⟨hdotted, hcapital⟩ := not_or.1 (List.mem_cons.not.1 h)
  have hcovers : ∀ r ∈ caseRuns, r.covers c.toNat = false := fun r hr =>
    Bool.eq_false_iff.2 fun h => hcapital (List.mem_flatMap.2 ⟨r, hr, CaseRun.mem_letters h⟩)
  have hletter : ¬ (0x41 ≤ c.toNat ∧ c.toNat ≤ 0x5A) := by
    have h := hcovers ⟨0x41, 0x5A, 1, 32⟩ (by decide)
    simpa [CaseRun.covers, Nat.mod_one] using h
  have hfind : caseRuns.find? (fun r => r.covers c.toNat) = none :=
    List.find?_eq_none.2 fun r hr => Bool.eq_false_iff.1 (hcovers r hr)
  simp [lowerChar, hletter, hdotted, hfind]

/-- Whatever is in lower case already is left alone. -/
lemma lowerChar_of_mem_lowerChar {c x : Char} (hx : x ∈ lowerChar c) : lowerChar x = [x] := by
  obtain ⟨rfl, h⟩ | h := eq_or_mem_of_mem_lowerChar hx
  · exact h
  · exact lowerChar_eq_self (not_mem_of_bitsOf bitsOf_smallLetters.1 h)

/-- Lower case leaves the character alone and makes it of no other one. -/
structure Caseless (x : Char) : Prop where
  lowerChar_eq : lowerChar x = [x]
  eq_of_mem : ∀ {c}, x ∈ lowerChar c → c = x
  ne_final : x ≠ 'ς'

lemma Caseless.of_not_mem {x : Char} (hcapital : x.toNat ∉ 0x130 :: capitals)
    (hsmall : x.toNat ∉ 0 :: 0x307 :: smallLetters) (hfinal : x ≠ 'ς') : Caseless x where
  lowerChar_eq := lowerChar_eq_self hcapital
  eq_of_mem hx := by
    obtain ⟨rfl, -⟩ | h := eq_or_mem_of_mem_lowerChar hx
    · rfl
    · exact absurd h hsmall
  ne_final := hfinal

lemma Caseless.of_isBlank {x : Char} (h : isBlank x = true) : Caseless x := by
  refine .of_not_mem (not_mem_of_bitsOf bitsOf_smallLetters.2.2 (mem_blanks h)) ?_ ?_
  · exact fun hsmall => not_mem_of_bitsOf bitsOf_smallLetters.2.1 hsmall (mem_blanks h)
  · rintro rfl
    exact absurd h (by decide)

lemma caseless_marker : Caseless '#' :=
  .of_not_mem (by decide +kernel) (by decide +kernel) (by decide)

lemma caseless_opening : Caseless '(' :=
  .of_not_mem (by decide +kernel) (by decide +kernel) (by decide)

/-! ### Texts -/

/-- Every character of the lower case comes from one of the text, and is left alone by now. -/
lemma lowerChar_of_mem_lowerAfter {x : Char} {before s : List Char}
    (hx : x ∈ lowerAfter before s) : lowerChar x = [x] := by
  induction s generalizing before with
  | nil => cases hx
  | cons c s ih =>
    rw [lowerAfter, List.mem_append] at hx
    obtain hx | hx := hx
    · split_ifs at hx
      · rw [List.mem_singleton, sigmaAt] at hx
        split_ifs at hx <;> subst hx <;> decide +kernel
      · exact lowerChar_of_mem_lowerChar hx
    · exact ih hx

/-- A text in lower case stays as it is. -/
lemma lower_lower (s : List Char) : lower (lower s) = lower s := by
  have hsmall : ∀ x ∈ lower s, lowerChar x = [x] := fun x hx => lowerChar_of_mem_lowerAfter hx
  have hsigma : 'Σ' ∉ lower s := fun h => absurd (hsmall _ h) (by decide +kernel)
  have hself : ∀ t : List Char, (∀ x ∈ t, lowerChar x = [x]) → t.flatMap lowerChar = t := by
    intro t ht
    induction t with
    | nil => rfl
    | cons x t ih =>
      rw [List.flatMap_cons, ht x (.head _), ih fun y hy => ht y (.tail _ hy)]
      rfl
  rw [lower, lowerAfter_of_not_mem hsigma, hself _ hsmall]

/-- What becomes of one character at its place. -/
def imageAt (before s : List Char) (c : Char) : List Char :=
  if c = 'Σ' then [sigmaAt before s] else lowerChar c

lemma lowerAfter_cons (before s : List Char) (c : Char) :
    lowerAfter before (c :: s) = imageAt before s c ++ lowerAfter (c :: before) s := rfl

lemma imageAt_ne_nil (before s : List Char) (c : Char) : imageAt before s c ≠ [] := by
  rw [imageAt]
  split_ifs
  · simp
  · exact lowerChar_ne_nil c

namespace Caseless

variable {x : Char} (hx : Caseless x)
include hx

lemma imageAt_self (before s : List Char) : imageAt before s x = [x] := by
  have hsigma : x ≠ 'Σ' := by
    rintro rfl
    exact absurd hx.lowerChar_eq (by decide +kernel)
  rw [imageAt, if_neg hsigma, hx.lowerChar_eq]

lemma mem_imageAt {before s : List Char} {c : Char} : x ∈ imageAt before s c ↔ c = x := by
  constructor
  · intro h
    rw [imageAt] at h
    split_ifs at h with hsigma
    · rw [List.mem_singleton, sigmaAt] at h
      split_ifs at h
      · exact absurd h hx.ne_final
      · subst hsigma
        refine hx.eq_of_mem ?_
        rw [h]
        decide +kernel
    · exact hx.eq_of_mem h
  · rintro rfl
    rw [hx.imageAt_self]
    exact List.mem_singleton_self c

lemma mem_lowerAfter {before s : List Char} : x ∈ lowerAfter before s ↔ x ∈ s := by
  induction s generalizing before with
  | nil => rfl
  | cons c s ih => rw [lowerAfter_cons, List.mem_append, hx.mem_imageAt, ih, List.mem_cons, eq_comm]

lemma head?_lowerAfter {before s : List Char} :
    (lowerAfter before s).head? = some x ↔ s.head? = some x := by
  cases s with
  | nil => rfl
  | cons c s =>
    rw [lowerAfter_cons, List.head?_append_of_ne_nil _ (imageAt_ne_nil _ _ _), List.head?_cons,
      Option.some.injEq]
    constructor
    · intro h
      exact hx.mem_imageAt.1 (List.mem_of_mem_head? h)
    · rintro rfl
      rw [hx.imageAt_self]
      rfl

end Caseless

end LoadTest.Text
