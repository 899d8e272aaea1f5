import LoadTest.Proofs.Faults
import Mathlib.Data.List.Forall2

/-!
# Adding up units of time

A duration is the sum of its hours, minutes and seconds, in words of 64 bits. The units are added up
one after the other, in an order of their own, until one of them spoils the sum: because its value
is no number, or because the sum does not fit. So no sum that is gone on with has wrapped around.
-/

namespace LoadTest

open Text

/-- So many of each unit, in milliseconds. -/
def inMillis (units : List (String × Millis)) (counts : List Nat) : Nat :=
  (List.zipWith (fun unit count => count * unit.2) units counts).sum

/-- The same in words of 64 bits, with products and sums that wrap around. -/
def inWords (units : List (String × Millis)) (counts : List Nat) : UInt64 :=
  (List.zipWith (fun unit count => UInt64.ofNat count * UInt64.ofNat unit.2) units counts).foldl
    (· + ·) 0

namespace Params

variable {p : Params} {name : String}

/-- The first value that is bound to a name. -/
def Gives (p : Params) (name : String) (value : List Char) : Prop :=
  ∃ before after, p.bindings = before ++ (name.toList, value) :: after ∧
    ∀ binding ∈ before, binding.1 ≠ name.toList

/-- No value is bound to a name. -/
def Lacks (p : Params) (name : String) : Prop := ∀ binding ∈ p.bindings, binding.1 ≠ name.toList

/-- How many of a unit there are, which is 0 if nothing is said about it. -/
def Has (p : Params) (unit : String) (count : Nat) : Prop :=
  (∃ value, p.Gives unit value ∧ IsNumeral value count ∧ count < 2 ^ 64) ∨ p.Lacks unit ∧ count = 0

/-- Why a unit can not be added to a total: its value is no number of 64 bits, or the sum is not. -/
inductive Spoils (p : Params) (total : Nat) (unit : String × Millis) : CompileError → Prop
  | unread {value : List Char} (hgives : p.Gives unit.1 value)
      (hvalue : ∀ n, IsNumeral value n → 2 ^ 64 ≤ n) :
      Spoils p total unit
        (.invalidParameter (String.ofList p.statement) unit.1 (String.ofList value))
  | exceeds {count : Nat} (hhas : p.Has unit.1 count) (hsum : 2 ^ 64 ≤ total + count * unit.2) :
      Spoils p total unit (.invalidParameter (String.ofList p.statement) unit.1 (toString count))

/-! ### Values -/

lemma value?_eq_some_iff_gives {value : List Char} :
    p.value? name = some value ↔ p.Gives name value := by
  rw [value?, List.lookup_eq_some_iff]
  simp only [bne_iff_ne, ne_comm, Gives]

lemma value?_eq_none_iff_lacks : p.value? name = none ↔ p.Lacks name := by
  rw [value?, List.lookup_eq_none_iff]
  simp only [bne_iff_ne, ne_comm, Lacks]

/-- A value that is no number of 64 bits. -/
lemma readNat_eq_none {value : List Char} :
    readNat 64 value = none ↔ ∀ n, IsNumeral value n → 2 ^ 64 ≤ n := by
  simp only [Option.eq_none_iff_forall_ne_some, ne_eq, readNat_eq_some, not_and, Nat.not_lt]
  rfl

/-- A unit has its number, or its value is none. -/
lemma exists_has_or_gives (p : Params) (unit : String) :
    (∃ count, p.Has unit count) ∨
      ∃ value, p.Gives unit value ∧ ∀ n, IsNumeral value n → 2 ^ 64 ≤ n := by
  cases hvalue : p.value? unit with
  | none => exact .inl ⟨0, .inr ⟨value?_eq_none_iff_lacks.1 hvalue, rfl⟩⟩
  | some value =>
    have hgives := value?_eq_some_iff_gives.1 hvalue
    cases hread : readNat 64 value with
    | none => exact .inr ⟨value, hgives, readNat_eq_none.1 hread⟩
    | some count => exact .inl ⟨count, .inl ⟨value, hgives, readNat_eq_some.1 hread⟩⟩

/-! ### Adding one unit -/

section

variable {total : Nat} {unit : String × Millis}

/-- A product that does not fit makes a sum that does not fit either. -/
lemma below_bind_below (count scale : Nat) :
    (below (capacity 64) (count * scale) >>= fun part => below (capacity 64) (total + part)) =
      if total + count * scale < 2 ^ 64 then some (total + count * scale) else none := by
  have hcap : capacity 64 = 2 ^ 64 := rfl
  rw [hcap, below]
  split_ifs with hpart hsum hsum
  · exact if_pos hsum
  · exact if_neg hsum
  · exact absurd hsum (by omega)
  · rfl

lemma addUnit_of_has {count : Nat} (h : p.Has unit.1 count) (htotal : total < 2 ^ 64) :
    p.addUnit total unit =
      if total + count * unit.2 < 2 ^ 64 then .ok (total + count * unit.2)
      else .error (p.invalid unit.1 (toString count)) := by
  obtain ⟨value, hgives, hnumeral⟩ | ⟨hlacks, rfl⟩ := h
  · have hoptional : p.optional unit.1 (readNat 64) = .ok (some count) :=
      optional_eq_some.2 ⟨value, value?_eq_some_iff_gives.2 hgives, readNat_eq_some.2 hnumeral⟩
    rw [addUnit, hoptional]
    simp only [below_bind_below]
    split_ifs <;> rfl
  · rw [addUnit, optional_eq_none.2 (value?_eq_none_iff_lacks.2 hlacks), Nat.zero_mul,
      Nat.add_zero, if_pos htotal]

lemma addUnit_of_unread {value : List Char} (hgives : p.Gives unit.1 value)
    (hvalue : ∀ n, IsNumeral value n → 2 ^ 64 ≤ n) :
    p.addUnit total unit = .error (p.invalid unit.1 (String.ofList value)) := by
  rw [addUnit, optional, value?_eq_some_iff_gives.2 hgives]
  simp only [readNat_eq_none.2 hvalue]

lemma addUnit_eq_ok_iff {sum : Nat} (htotal : total < 2 ^ 64) :
    p.addUnit total unit = .ok sum ↔
      ∃ count, p.Has unit.1 count ∧ sum = total + count * unit.2 ∧ sum < 2 ^ 64 := by
  constructor
  · intro h
    obtain ⟨count, hhas⟩ | ⟨value, hgives, hvalue⟩ := p.exists_has_or_gives unit.1
    · rw [addUnit_of_has hhas htotal] at h
      split_ifs at h with hsum
      cases h
      exact ⟨count, hhas, rfl, hsum⟩
    · rw [addUnit_of_unread hgives hvalue] at h
      cases h
  · rintro ⟨count, hhas, rfl, hsum⟩
    rw [addUnit_of_has hhas htotal, if_pos hsum]

lemma addUnit_eq_error_iff {e : CompileError} (htotal : total < 2 ^ 64) :
    p.addUnit total unit = .error e ↔ p.Spoils total unit e := by
  constructor
  · intro h
    obtain ⟨count, hhas⟩ | ⟨value, hgives, hvalue⟩ := p.exists_has_or_gives unit.1
    · rw [addUnit_of_has hhas htotal] at h
      split_ifs at h with hsum
      cases h
      exact .exceeds hhas (Nat.not_lt.1 hsum)
    · rw [addUnit_of_unread hgives hvalue] at h
      cases h
      exact .unread hgives hvalue
  · rintro (⟨hgives, hvalue⟩ | ⟨hhas, hsum⟩)
    · exact addUnit_of_unread hgives hvalue
    · rw [addUnit_of_has hhas htotal, if_neg (Nat.not_lt.2 hsum), invalid]

end

/-! ### Adding all units -/

section

variable {units : List (String × Millis)} {total : Nat}

/-- The units have these numbers. -/
abbrev HasAll (p : Params) (units : List (String × Millis)) (counts : List Nat) : Prop :=
  List.Forall₂ (fun unit count => p.Has unit.1 count) units counts

lemma inMillis_cons (unit : String × Millis) (count : Nat) (counts : List Nat) :
    inMillis (unit :: units) (count :: counts) = count * unit.2 + inMillis units counts := by
  simp [inMillis]

/-- The units are added up exactly if all of them have their numbers and the sum fits. -/
lemma foldlM_addUnit_eq_ok {sum : Nat} (htotal : total < 2 ^ 64) :
    units.foldlM p.addUnit total = .ok sum ↔
      ∃ counts, p.HasAll units counts ∧ sum = total + inMillis units counts ∧ sum < 2 ^ 64 := by
  induction units generalizing total with
  | nil =>
    simp only [List.foldlM_nil, pure_eq_ok, List.forall₂_nil_left_iff]
    constructor
    · rintro rfl
      exact ⟨[], rfl, rfl, htotal⟩
    · rintro ⟨_, rfl, rfl, -⟩
      rfl
  | cons unit units ih =>
    rw [List.foldlM_cons, bind_eq_ok]
    constructor
    · rintro ⟨next, hnext, hrest⟩
      obtain ⟨count, hhas, rfl, hlt⟩ := (addUnit_eq_ok_iff htotal).1 hnext
      obtain ⟨counts, hall, rfl, hsum⟩ := (ih hlt).1 hrest
      refine ⟨count :: counts, .cons hhas hall, ?_⟩
      rw [inMillis_cons, ← Nat.add_assoc]
      exact ⟨rfl, hsum⟩
    · rintro ⟨_, hall, hsum, hlt⟩
      obtain ⟨count, counts, hhas, hrest, rfl⟩ := List.forall₂_cons_left_iff.1 hall
      rw [inMillis_cons, ← Nat.add_assoc] at hsum
      have hnext : total + count * unit.2 < 2 ^ 64 := by omega
      exact ⟨_, (addUnit_eq_ok_iff htotal).2 ⟨count, hhas, rfl, hnext⟩,
        (ih hnext).2 ⟨counts, hrest, hsum, hlt⟩⟩

/-- Adding up fails at the first unit that spoils the sum. -/
lemma foldlM_addUnit_eq_error {e : CompileError} (htotal : total < 2 ^ 64) :
    units.foldlM p.addUnit total = .error e ↔
      ∃ before unit after counts, units = before ++ unit :: after ∧ p.HasAll before counts ∧
        total + inMillis before counts < 2 ^ 64 ∧
        p.Spoils (total + inMillis before counts) unit e := by
  induction units generalizing total with
  | nil =>
    constructor
    · exact fun h => absurd h pure_ne_error
    · rintro ⟨before, unit, after, counts, heq, -⟩
      simp at heq
  | cons unit units ih =>
    rw [List.foldlM_cons, bind_eq_error, addUnit_eq_error_iff htotal]
    constructor
    · rintro (hspoils | ⟨next, hnext, hrest⟩)
      · exact ⟨[], unit, units, [], rfl, .nil, htotal, hspoils⟩
      · obtain ⟨count, hhas, rfl, hlt⟩ := (addUnit_eq_ok_iff htotal).1 hnext
        obtain ⟨before, last, after, counts, rfl, hall, hsum, hspoils⟩ := (ih hlt).1 hrest
        refine ⟨unit :: before, last, after, count :: counts, rfl, .cons hhas hall, ?_⟩
        rw [inMillis_cons, ← Nat.add_assoc]
        exact ⟨hsum, hspoils⟩
    · rintro ⟨before, last, after, counts, heq, hall, hsum, hspoils⟩
      cases before with
      | nil =>
        obtain ⟨rfl, rfl⟩ := List.cons.inj heq
        obtain rfl := List.forall₂_nil_left_iff.1 hall
        exact .inl hspoils
      | cons first before =>
        obtain ⟨rfl, rfl⟩ := List.cons.inj heq
        obtain ⟨count, counts, hhas, hrest, rfl⟩ := List.forall₂_cons_left_iff.1 hall
        rw [inMillis_cons, ← Nat.add_assoc] at hsum hspoils
        have hnext : total + count * unit.2 < 2 ^ 64 :=
          Nat.lt_of_le_of_lt (Nat.le_add_right ..) hsum
        exact .inr ⟨_, (addUnit_eq_ok_iff htotal).2 ⟨count, hhas, rfl, hnext⟩,
          (ih hnext).2 ⟨before, last, after, counts, rfl, hrest, hsum, hspoils⟩⟩

end

/-! ### Words -/

lemma toNat_mul_words (count scale : Nat) :
    (UInt64.ofNat count * UInt64.ofNat scale).toNat = count * scale % 2 ^ 64 := by
  rw [UInt64.toNat_mul, UInt64.toNat_ofNat', UInt64.toNat_ofNat', ← Nat.mul_mod]

/-- Products and sums of words are exact as long as the exact sum fits. -/
lemma toNat_foldl_words {units : List (String × Millis)} {counts : List Nat} (total : UInt64)
    (h : total.toNat + inMillis units counts < 2 ^ 64) :
    ((List.zipWith (fun unit count => UInt64.ofNat count * UInt64.ofNat unit.2) units counts).foldl
        (· + ·) total).toNat = total.toNat + inMillis units counts ∧
      ∀ pair ∈ units.zip counts,
        (UInt64.ofNat pair.2 * UInt64.ofNat pair.1.2).toNat = pair.2 * pair.1.2 := by
  induction units generalizing counts total with
  | nil => simp [inMillis]
  | cons unit units ih =>
    cases counts with
    | nil => simp [inMillis]
    | cons count counts =>
      rw [inMillis_cons, ← Nat.add_assoc] at h
      have hproduct : (UInt64.ofNat count * UInt64.ofNat unit.2).toNat = count * unit.2 := by
        rw [toNat_mul_words, Nat.mod_eq_of_lt (by omega)]
      have hnext : (total + UInt64.ofNat count * UInt64.ofNat unit.2).toNat =
          total.toNat + count * unit.2 := by
        rw [UInt64.toNat_add, hproduct, Nat.mod_eq_of_lt (by omega)]
      obtain ⟨hsum, hproducts⟩ := ih _ (by rw [hnext]; exact h)
      rw [hnext, Nat.add_assoc, ← inMillis_cons] at hsum
      exact ⟨hsum, List.forall_mem_cons.2 ⟨hproduct, hproducts⟩⟩

/-- The duration of some parameters. It is the exact sum of the hours, minutes and seconds if each
that is given is a number of 64 bits and the sum is one, too. Otherwise the error names the first of
the three, in this order, whose value is no such number or which takes the sum of those before it
past 64 bits. Whatever has been added up on the way is exact, as are the products and sums of words
that make it up. -/
theorem duration_adds_up (p : Params) :
    (∀ d, p.duration = .ok d ↔ ∃ h m s, p.Has "hours" h ∧ p.Has "minutes" m ∧ p.Has "seconds" s ∧
      d = h * 3600000 + m * 60000 + s * 1000 ∧ h * 3600000 + m * 60000 + s * 1000 ≤ 2 ^ 64 - 1) ∧
    (∀ e, p.duration = .error e ↔ ∃ before unit after counts,
      [("hours", 3600000), ("minutes", 60000), ("seconds", 1000)] = before ++ unit :: after ∧
        p.HasAll before counts ∧ inMillis before counts ≤ 2 ^ 64 - 1 ∧
        p.Spoils (inMillis before counts) unit e) ∧
    ∀ units total, units <+: durationUnits → units.foldlM p.addUnit 0 = .ok total →
      ∃ counts, p.HasAll units counts ∧ total = inMillis units counts ∧
        (inWords units counts).toNat = total ∧ ∀ pair ∈ units.zip counts,
          (UInt64.ofNat pair.2 * UInt64.ofNat pair.1.2).toNat = pair.2 * pair.1.2 := by
  have hzero : (0 : Nat) < 2 ^ 64 := by decide
  refine ⟨fun d => ?_, fun e => ?_, fun units total _ hfold => ?_⟩
  · rw [duration, foldlM_addUnit_eq_ok hzero]
    constructor
    · rintro ⟨counts, hall, rfl, hlt⟩
      obtain ⟨h, _, hhours, hrest, rfl⟩ := List.forall₂_cons_left_iff.1 hall
      obtain ⟨m, _, hminutes, hlast, rfl⟩ := List.forall₂_cons_left_iff.1 hrest
      obtain ⟨s, _, hseconds, hnil, rfl⟩ := List.forall₂_cons_left_iff.1 hlast
      obtain rfl := List.forall₂_nil_left_iff.1 hnil
      have hsum : 0 + inMillis durationUnits [h, m, s] = h * 3600000 + m * 60000 + s * 1000 := by
        simp [inMillis, durationUnits, Nat.add_assoc]
      exact ⟨h, m, s, hhours, hminutes, hseconds, hsum, Nat.le_sub_one_of_lt (hsum ▸ hlt)⟩
    · rintro ⟨h, m, s, hhours, hminutes, hseconds, rfl, hle⟩
      refine ⟨[h, m, s], .cons hhours (.cons hminutes (.cons hseconds .nil)), ?_, by omega⟩
      simp [inMillis, durationUnits, Nat.add_assoc]
  · rw [duration, foldlM_addUnit_eq_error hzero]
    simp only [Nat.zero_add, Nat.le_sub_one_iff_lt hzero]
    rfl
  · obtain ⟨counts, hall, rfl, hlt⟩ := (foldlM_addUnit_eq_ok hzero).1 hfold
    obtain ⟨hsum, hproducts⟩ := toNat_foldl_words 0 hlt
    exact ⟨counts, hall, Nat.zero_add _, hsum, hproducts⟩

end Params

end LoadTest
