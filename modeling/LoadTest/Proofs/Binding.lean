import LoadTest.Proofs.Numeral
import LoadTest.Scenario.Params
import Mathlib.Tactic.Common

/-!
# What the parameters of a statement are bound to

An argument text is a list of items between commas. `Binds` says, of the text itself, which value
comes first for a name, and the parameters that are read from a statement are bound to just that.
On top of it stand the numbers and the durations that the built-in commands read.
-/

namespace LoadTest

open Text

/-- Every item of an argument text names its value, apart from empty items. -/
def AllNamed (args : List Char) : Prop := ∀ item ∈ args.splitOn ',', item ≠ [] → ':' ∈ item

/-- The first item of that name gives the value. -/
def Binds (args : List Char) (name : String) (value : List Char) : Prop :=
  ∃ before after, args.splitOn ',' = before ++ (name.toList ++ ':' :: value) :: after ∧
    ∀ item ∈ before, ¬ name.toList ++ [':'] <+: item

/-- No item has that name. -/
def Unbound (args : List Char) (name : String) : Prop :=
  ∀ item ∈ args.splitOn ',', ¬ name.toList ++ [':'] <+: item

/-- The first value of that name is a numeral of so many bits. -/
def Reads (args : List Char) (name : String) (bits n : Nat) : Prop :=
  ∃ value, Binds args name value ∧ IsNumeral value n ∧ n < 2 ^ bits

/-- The number of hours, minutes or seconds, which is 0 if there are none. -/
def Counts (args : List Char) (unit : String) (n : Nat) : Prop :=
  Reads args unit 64 n ∨ Unbound args unit ∧ n = 0

/-- The hours, minutes and seconds add up to that many milliseconds, which fit 64 bits. -/
def Lasts (args : List Char) (duration : Nat) : Prop :=
  ∃ h m s, Counts args "hours" h ∧ Counts args "minutes" m ∧ Counts args "seconds" s ∧
    duration = h * 3600000 + m * 60000 + s * 1000 ∧ duration < 2 ^ 64

/-! ### Success -/

section

variable {ε α β : Type}

lemma bind_eq_ok {x : Except ε α} {f : α → Except ε β} {b : β} :
    x >>= f = .ok b ↔ ∃ a, x = .ok a ∧ f a = .ok b := by
  cases x with
  | error e => simp [bind, Except.bind]
  | ok a => simp [bind, Except.bind]

lemma pure_eq_ok {a b : α} : (pure a : Except ε α) = .ok b ↔ a = b := by
  simp [pure, Except.pure]

lemma map_eq_ok {x : Except ε α} {f : α → β} {b : β} :
    f <$> x = .ok b ↔ ∃ a, x = .ok a ∧ f a = b := by
  cases x with
  | error e => simp [Functor.map, Except.map]
  | ok a => simp [Functor.map, Except.map]

end

/-! ### Items -/

lemma splitAtAll_eq_splitOn (c : Char) (s : List Char) : splitAtAll c s = s.splitOn c := by
  induction s with
  | nil => simp [splitAtAll]
  | cons x s ih =>
    rw [List.splitOn_eq_splitOnP] at ih ⊢
    rw [splitAtAll, List.splitOnP_cons_eq_if_modifyHead, ih]
    by_cases hx : x = c
    · simp [hx]
    · simp only [hx, if_false, beq_iff_eq]
      cases hs : s.splitOnP (· == c) with
      | nil => exact absurd hs (List.splitOnP_ne_nil _ _)
      | cons p ps => rfl

/-- The name of an item is what stands before its first colon. -/
lemma isPrefix_item {name key value : List Char} (hname : ':' ∉ name) (hkey : ':' ∉ key) :
    name ++ [':'] <+: key ++ ':' :: value ↔ name = key := by
  constructor
  · rintro ⟨t, ht⟩
    have hsplit : splitAtFirst ':' (key ++ ':' :: value) = some (key, value) :=
      splitAtFirst_eq_some.2 ⟨rfl, hkey⟩
    have hsplit' : splitAtFirst ':' (key ++ ':' :: value) = some (name, t) :=
      splitAtFirst_eq_some.2 ⟨by simp [← ht], hname⟩
    exact (Prod.mk.inj (Option.some.inj (hsplit'.symm.trans hsplit))).1
  · rintro rfl
    exact ⟨value, by simp⟩

/-- Cutting every item at its colon works exactly if every item has one. -/
lemma exists_mapM_splitAtFirst {items : List (List Char)} :
    (∃ bindings, (items.filter fun item => !item.isEmpty).mapM (splitAtFirst ':') = some bindings) ↔
      ∀ item ∈ items, item ≠ [] → ':' ∈ item := by
  induction items with
  | nil => simp
  | cons item items ih =>
    rw [List.forall_mem_cons, ← ih]
    cases item with
    | nil => simp
    | cons c s =>
      simp only [List.isEmpty_cons, Bool.not_false, List.filter_cons_of_pos, List.mapM_cons,
        Option.pure_def, Option.bind_eq_bind, Option.bind_eq_some_iff, ne_eq, reduceCtorEq,
        not_false_eq_true, forall_const]
      constructor
      · rintro ⟨_, ⟨k, v⟩, hkv, bindings, hbs, -⟩
        obtain ⟨heq, -⟩ := splitAtFirst_eq_some.1 hkv
        exact ⟨by simp [heq], bindings, hbs⟩
      · rintro ⟨hcolon, bindings, hbs⟩
        cases hkv : splitAtFirst ':' (c :: s) with
        | none => exact absurd hcolon (splitAtFirst_eq_none.1 hkv)
        | some kv => exact ⟨_, kv, rfl, bindings, hbs, rfl⟩

/-- Looking a name up among the bindings finds the value of its first item. -/
lemma lookup_of_mapM {items : List (List Char)} {bindings : List (List Char × List Char)}
    {name : List Char} (hname : ':' ∉ name)
    (h : (items.filter fun item => !item.isEmpty).mapM (splitAtFirst ':') = some bindings) :
    bindings.lookup name =
      (items.find? (name ++ [':']).isPrefixOf).map (·.drop (name.length + 1)) := by
  induction items generalizing bindings with
  | nil =>
    cases h
    rfl
  | cons item items ih =>
    cases item with
    | nil =>
      rw [List.find?_cons_of_neg (by simp)]
      exact ih (by simpa using h)
    | cons c s =>
      simp only [List.isEmpty_cons, Bool.not_false, List.filter_cons_of_pos, List.mapM_cons,
        Option.pure_def, Option.bind_eq_bind, Option.bind_eq_some_iff, Option.some.injEq] at h
      obtain ⟨⟨key, value⟩, hkv, rest, hrest, rfl⟩ := h
      obtain ⟨heq, hkey⟩ := splitAtFirst_eq_some.1 hkv
      rw [heq, List.lookup_cons]
      by_cases hk : name = key
      · subst hk
        rw [List.find?_cons_of_pos
          (List.isPrefixOf_iff_prefix.2 ((isPrefix_item hname hkey).2 rfl))]
        simp
      · rw [List.find?_cons_of_neg (by
          rw [List.isPrefixOf_iff_prefix, isPrefix_item hname hkey]
          exact hk)]
        simp only [beq_eq_false_iff_ne.2 hk]
        exact ih hrest

/-! ### Parameters -/

namespace Params

/-- Parameters can be read exactly if every item is named. -/
lemma exists_ofStatement {s : Statement} : (∃ p, ofStatement s = .ok p) ↔ AllNamed s.args := by
  rw [AllNamed, ← exists_mapM_splitAtFirst, ← splitAtAll_eq_splitOn]
  rw [ofStatement, items]
  constructor
  · rintro ⟨p, hp⟩
    split at hp
    next bindings hb => exact ⟨bindings, hb⟩
    next => cases hp
  · rintro ⟨bindings, hb⟩
    exact ⟨_, by rw [hb]⟩

variable {s : Statement} {p : Params} {name : String}

lemma statement_eq (h : ofStatement s = .ok p) : p.statement = s.text := by
  rw [ofStatement] at h
  split at h
  · cases h
    rfl
  · cases h

lemma value?_eq_find? (h : ofStatement s = .ok p) (hname : ':' ∉ name.toList) :
    p.value? name = ((s.args.splitOn ',').find? (name.toList ++ [':']).isPrefixOf).map
      (·.drop (name.toList.length + 1)) := by
  rw [ofStatement, items] at h
  split at h
  next bindings hb =>
    cases h
    rw [← splitAtAll_eq_splitOn]
    exact lookup_of_mapM hname hb
  next => cases h

lemma value?_eq_some (h : ofStatement s = .ok p) (hname : ':' ∉ name.toList) {value : List Char} :
    p.value? name = some value ↔ Binds s.args name value := by
  simp only [value?_eq_find? h hname, Option.map_eq_some_iff, List.find?_eq_some_iff_append,
    Bool.not_eq_true', Bool.eq_false_iff, ne_eq, List.isPrefixOf_iff_prefix]
  constructor
  · rintro ⟨_, ⟨⟨t, rfl⟩, before, after, heq, hbefore⟩, hv⟩
    refine ⟨before, after, ?_, hbefore⟩
    have ht : t = value := by simpa using hv
    simpa [ht] using heq
  · rintro ⟨before, after, heq, hbefore⟩
    exact ⟨_, ⟨⟨value, by simp⟩, before, after, heq, hbefore⟩, by simp⟩

lemma value?_eq_none (h : ofStatement s = .ok p) (hname : ':' ∉ name.toList) :
    p.value? name = none ↔ Unbound s.args name := by
  simp only [value?_eq_find? h hname, Option.map_eq_none_iff, List.find?_eq_none,
    List.isPrefixOf_iff_prefix, Unbound]

lemma optional_eq_none {α : Type} {read : List Char → Option α} :
    p.optional name read = .ok none ↔ p.value? name = none := by
  rw [optional]
  split
  next h => simp [h]
  next value h => split <;> simp [h]

lemma optional_eq_some {α : Type} {read : List Char → Option α} {a : α} :
    p.optional name read = .ok (some a) ↔
      ∃ value, p.value? name = some value ∧ read value = some a := by
  rw [optional]
  split
  next h => simp [h]
  next value h => split <;> simp_all

lemma required_eq_ok {α : Type} {read : List Char → Option α} {a : α} :
    p.required name read = .ok a ↔ ∃ value, p.value? name = some value ∧ read value = some a := by
  rw [← optional_eq_some]
  rw [required]
  split <;> simp_all

/-! ### Numbers and durations -/

lemma value?_read_iff_reads (h : ofStatement s = .ok p) (hname : ':' ∉ name.toList)
    {bits n : Nat} :
    (∃ value, p.value? name = some value ∧ readNat bits value = some n) ↔
      Reads s.args name bits n := by
  simp only [value?_eq_some h hname, readNat_eq_some]
  rfl

lemma required_readNat (h : ofStatement s = .ok p) (hname : ':' ∉ name.toList) {bits n : Nat} :
    p.required name (readNat bits) = .ok n ↔ Reads s.args name bits n := by
  rw [required_eq_ok, value?_read_iff_reads h hname]

/-- Adding a unit to a duration works exactly if its count is one and the sum fits. -/
lemma addUnit_eq_ok (h : ofStatement s = .ok p) (hname : ':' ∉ name.toList) {total scale sum : Nat}
    (htotal : total < 2 ^ 64) :
    p.addUnit total (name, scale) = .ok sum ↔
      ∃ n, Counts s.args name n ∧ sum = total + n * scale ∧ sum < 2 ^ 64 := by
  have hcap : capacity 64 = 2 ^ 64 := rfl
  unfold addUnit Counts
  simp only [← value?_read_iff_reads h hname, ← value?_eq_none h hname]
  constructor
  · intro hadd
    split at hadd
    next => cases hadd
    next hnone =>
      cases hadd
      exact ⟨0, .inr ⟨optional_eq_none.1 hnone, rfl⟩, by simp, htotal⟩
    next n hsome =>
      split at hadd
      next sum' hsum =>
        cases hadd
        simp only [Option.bind_eq_bind, Option.bind_eq_some_iff, below_eq_some, hcap] at hsum
        obtain ⟨part, ⟨rfl, -⟩, rfl, hlt⟩ := hsum
        exact ⟨n, .inl (optional_eq_some.1 hsome), rfl, hlt⟩
      next => cases hadd
  · rintro ⟨n, hread | ⟨hnone, rfl⟩, rfl, hlt⟩
    · rw [optional_eq_some.2 hread]
      have hpart : n * scale < 2 ^ 64 := Nat.lt_of_le_of_lt (Nat.le_add_left _ _) hlt
      have hsum : (below (capacity 64) (n * scale) >>= fun part =>
          below (capacity 64) (total + part)) = some (total + n * scale) := by
        simp only [Option.bind_eq_bind, Option.bind_eq_some_iff, below_eq_some, hcap]
        exact ⟨_, ⟨rfl, hpart⟩, rfl, hlt⟩
      simp [hsum]
    · rw [optional_eq_none.2 hnone]
      simp

lemma duration_eq_ok (h : ofStatement s = .ok p) {d : Nat} :
    p.duration = .ok d ↔ Lasts s.args d := by
  have hzero : (0 : Nat) < 2 ^ 64 := by decide
  have hhours : ':' ∉ "hours".toList := by decide
  have hminutes : ':' ∉ "minutes".toList := by decide
  have hseconds : ':' ∉ "seconds".toList := by decide
  simp only [duration, durationUnits, List.foldlM_cons, List.foldlM_nil, bind_eq_ok, pure_eq_ok]
  constructor
  · rintro ⟨a, ha, b, hb, c, hc, rfl⟩
    obtain ⟨n, hn, rfl, ha⟩ := (addUnit_eq_ok h hhours hzero).1 ha
    obtain ⟨m, hm, rfl, hb⟩ := (addUnit_eq_ok h hminutes ha).1 hb
    obtain ⟨k, hk, rfl, hc⟩ := (addUnit_eq_ok h hseconds hb).1 hc
    exact ⟨n, m, k, hn, hm, hk, by omega, hc⟩
  · rintro ⟨n, m, k, hn, hm, hk, rfl, hlt⟩
    -- The sum fits, so the partial sums do.
    have hc : 0 + n * 3600000 + m * 60000 + k * 1000 < 2 ^ 64 := by omega
    have hb : 0 + n * 3600000 + m * 60000 < 2 ^ 64 := by omega
    have ha : 0 + n * 3600000 < 2 ^ 64 := by omega
    exact ⟨_, (addUnit_eq_ok h hhours hzero).2 ⟨n, hn, rfl, ha⟩,
      _, (addUnit_eq_ok h hminutes ha).2 ⟨m, hm, rfl, hb⟩,
      _, (addUnit_eq_ok h hseconds hb).2 ⟨k, hk, rfl, hc⟩, by rw [Nat.zero_add]⟩

end Params

end LoadTest
