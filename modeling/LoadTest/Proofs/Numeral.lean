import LoadTest.Text.Integer
import Mathlib.Data.Nat.Digits.Defs

/-!
# Decimal numerals

An unsigned reader accepts the decimal numerals of its width and nothing else, and reads each as the
number that it writes in base ten.
-/

namespace LoadTest.Text

/-- The text `s` writes `n` in base ten. A plus sign may stand in front. -/
def IsNumeral (s : List Char) (n : Nat) : Prop :=
  ∃ ds : List Nat, ds ≠ [] ∧ (∀ d ∈ ds, d < 10) ∧ n = Nat.ofDigits 10 ds.reverse ∧
    (s = ds.map Nat.digitChar ∨ s = '+' :: ds.map Nat.digitChar)

/-! ### Digits -/

lemma digitValue?_digitChar : ∀ d < 10, digitValue? (Nat.digitChar d) = some d := by decide

/-- Only the ten digits have a value. -/
lemma digitValue?_eq_some {c : Char} {d : Nat} :
    digitValue? c = some d ↔ d < 10 ∧ c = Nat.digitChar d := by
  constructor
  · intro h
    rw [digitValue?] at h
    split at h
    next hc =>
      obtain ⟨h0, h9⟩ := hc
      have hlo : 48 ≤ c.toNat := h0
      have hhi : c.toNat ≤ 57 := h9
      have hd : d = c.toNat - 48 := (Option.some.inj h).symm
      refine ⟨by omega, Char.toNat_inj.1 ?_⟩
      rw [Nat.toNat_digitChar_of_lt_ten (by omega)]
      omega
    next => cases h
  · rintro ⟨hd, rfl⟩
    exact digitValue?_digitChar d hd

lemma digitsFrom_map_digitChar {ds : List Nat} (hds : ∀ d ∈ ds, d < 10) (n : Nat) :
    digitsFrom n (ds.map Nat.digitChar) = some (ds.foldl (fun n d => 10 * n + d) n) := by
  induction ds generalizing n with
  | nil => rfl
  | cons d ds ih =>
    have hd : digitValue? (Nat.digitChar d) = some d :=
      digitValue?_digitChar d (hds d List.mem_cons_self)
    simp only [List.map_cons, digitsFrom, hd, List.foldl_cons]
    exact ih (fun e he => hds e (List.mem_cons_of_mem d he)) _

lemma eq_map_digitChar_of_digitsFrom {n m : Nat} {s : List Char} (h : digitsFrom n s = some m) :
    ∃ ds : List Nat, (∀ d ∈ ds, d < 10) ∧ s = ds.map Nat.digitChar := by
  induction s generalizing n with
  | nil => exact ⟨[], by simp, rfl⟩
  | cons c s ih =>
    simp only [digitsFrom] at h
    split at h
    next d hd =>
      obtain ⟨hlt, rfl⟩ := digitValue?_eq_some.1 hd
      obtain ⟨ds, hds, rfl⟩ := ih h
      exact ⟨d :: ds, List.forall_mem_cons.2 ⟨hlt, hds⟩, rfl⟩
    next => cases h

/-- A run of digits, most significant first, as a number. -/
lemma foldl_eq_ofDigits (ds : List Nat) :
    ds.foldl (fun n d => 10 * n + d) 0 = Nat.ofDigits 10 ds.reverse := by
  rw [Nat.ofDigits_eq_foldr, List.foldr_reverse]
  congr 1
  funext n d
  simp [Nat.add_comm]

lemma readDigits_eq_some {s : List Char} {n : Nat} :
    readDigits s = some n ↔
      ∃ ds : List Nat, ds ≠ [] ∧ (∀ d ∈ ds, d < 10) ∧ n = Nat.ofDigits 10 ds.reverse ∧
        s = ds.map Nat.digitChar := by
  constructor
  · intro h
    cases s with
    | nil => cases h
    | cons c s =>
      obtain ⟨ds, hds, heq⟩ := eq_map_digitChar_of_digitsFrom (h : digitsFrom 0 (c :: s) = some n)
      refine ⟨ds, by rintro rfl; simp at heq, hds, ?_, heq⟩
      have hread : digitsFrom 0 (c :: s) = some n := h
      rw [heq, digitsFrom_map_digitChar hds, foldl_eq_ofDigits] at hread
      exact (Option.some.inj hread).symm
  · rintro ⟨ds, hne, hds, rfl, rfl⟩
    obtain ⟨d, ds, rfl⟩ := List.exists_cons_of_ne_nil hne
    rw [← foldl_eq_ofDigits]
    exact digitsFrom_map_digitChar hds 0

/-! ### Numerals of a width -/

/-- A run of digits does not begin with a sign. -/
lemma map_digitChar_ne_plus {ds : List Nat} (hds : ∀ d ∈ ds, d < 10) (s : List Char) :
    ds.map Nat.digitChar ≠ '+' :: s := by
  cases ds with
  | nil => simp
  | cons d ds =>
    have hplus : ∀ d < 10, Nat.digitChar d ≠ '+' := by decide
    simp [hplus d (hds d List.mem_cons_self)]

/-- An unsigned reader accepts the numerals below the bound of its width. -/
theorem readNat_eq_some {bits n : Nat} {s : List Char} :
    readNat bits s = some n ↔ IsNumeral s n ∧ n < capacity bits := by
  unfold readNat
  split
  next s =>
    simp only [Option.bind_eq_bind, Option.bind_eq_some_iff, below_eq_some]
    constructor
    · rintro ⟨m, hm, rfl, hlt⟩
      obtain ⟨ds, hne, hds, hval, rfl⟩ := readDigits_eq_some.1 hm
      exact ⟨⟨ds, hne, hds, hval, .inr rfl⟩, hlt⟩
    · rintro ⟨⟨ds, hne, hds, hval, hs | hs⟩, hlt⟩
      · exact absurd hs.symm (map_digitChar_ne_plus hds s)
      · obtain ⟨-, rfl⟩ := List.cons.inj hs
        exact ⟨n, readDigits_eq_some.2 ⟨ds, hne, hds, hval, rfl⟩, rfl, hlt⟩
  next s hsign =>
    simp only [Option.bind_eq_bind, Option.bind_eq_some_iff, below_eq_some]
    constructor
    · rintro ⟨m, hm, rfl, hlt⟩
      obtain ⟨ds, hne, hds, hval, rfl⟩ := readDigits_eq_some.1 hm
      exact ⟨⟨ds, hne, hds, hval, .inl rfl⟩, hlt⟩
    · rintro ⟨⟨ds, hne, hds, hval, hs | hs⟩, hlt⟩
      · exact ⟨n, readDigits_eq_some.2 ⟨ds, hne, hds, hval, hs⟩, rfl, hlt⟩
      · exact absurd hs (hsign _)

/-! ### Printing -/

/-- A number is written with the digits of its decimal expansion. -/
lemma exists_toDigits_eq_map (n : Nat) : ∃ ds : List Nat, ds ≠ [] ∧ (∀ d ∈ ds, d < 10) ∧
    n = Nat.ofDigits 10 ds.reverse ∧ Nat.toDigits 10 n = ds.map Nat.digitChar := by
  induction n using Nat.strong_induction_on with
  | _ n ih =>
    rw [Nat.toDigits_eq_if (by decide)]
    split_ifs with hlt
    · exact ⟨[n], by simp, by simpa using hlt, by simp, rfl⟩
    · obtain ⟨ds, -, hds, hval, hchars⟩ := ih (n / 10) (by omega)
      refine ⟨ds ++ [n % 10], by simp, ?_, ?_, by simp [hchars]⟩
      · intro d hd
        rcases List.mem_append.1 hd with hd | hd
        · exact hds d hd
        · rw [List.mem_singleton.1 hd]
          exact Nat.mod_lt n (by decide)
      · rw [List.reverse_append, List.reverse_singleton, List.singleton_append, Nat.ofDigits_cons,
          ← hval]
        exact (Nat.mod_add_div n 10).symm

/-- What holds of the ten digits holds of all characters of a printed number. -/
lemma forall_mem_toDigits {P : Char → Prop} (h : ∀ d < 10, P (Nat.digitChar d)) (n : Nat) :
    ∀ c ∈ Nat.toDigits 10 n, P c := by
  obtain ⟨ds, -, hds, -, hchars⟩ := exists_toDigits_eq_map n
  intro c hc
  rw [hchars] at hc
  obtain ⟨d, hd, rfl⟩ := List.mem_map.1 hc
  exact h d (hds d hd)

lemma not_mem_toDigits {c : Char} (h : ∀ d < 10, Nat.digitChar d ≠ c) (n : Nat) :
    c ∉ Nat.toDigits 10 n := by
  have hall : ∀ c' ∈ Nat.toDigits 10 n, c' ≠ c := forall_mem_toDigits h n
  exact fun hc => hall c hc rfl

/-- What is printed of a number is a numeral of it. -/
theorem isNumeral_toString (n : Nat) : IsNumeral (toString n).toList n := by
  obtain ⟨ds, hne, hds, hval, hchars⟩ := exists_toDigits_eq_map n
  refine ⟨ds, hne, hds, hval, .inl ?_⟩
  rw [Nat.toString_eq_repr, Nat.toList_repr, hchars]

end LoadTest.Text
