import LoadTest.Behavior.Selection
import Mathlib.Algebra.BigOperators.Group.List.Basic
import Mathlib.Algebra.Order.Field.Rat
import Mathlib.Data.Finset.Card
import Mathlib.Data.Nat.Cast.Order.Field
import Mathlib.Order.Bounds.Basic
import Mathlib.Order.Interval.Finset.Nat
import Mathlib.Tactic.FieldSimp
import Mathlib.Tactic.Linarith
import Mathlib.Tactic.Positivity

/-!
# Shares of the tasks

A draw selects the first task at which the weights so far reach it, so a task is selected by the
draws above the weights before it and up to its own. Of draws that are spread evenly over the total
weight every task gets its share, give or take one draw.
-/

namespace LoadTest

variable {σ : Type}

/-! ### Places -/

/-- The weights of the tasks up to a place, that of the place included. -/
def weightThrough (tasks : List (Task σ)) (i : Nat) : Nat :=
  ((tasks.take (i + 1)).map Task.weight).sum

/-- The place at which a draw finds its task, among `t` and those that follow it. -/
def pickPlace : (t : Task σ) → (others : List (Task σ)) → (draw : ℚ) → Nat
  | _, [], _ => 0
  | t, u :: us, draw => if draw ≤ t.weight then 0 else pickPlace u us (draw - t.weight) + 1

/-- The place of the task that a draw selects. -/
def Template.placeAt (t : Template σ) (draw : ℚ) : Nat := pickPlace t.first t.others draw

lemma weightThrough_cons_zero (t : Task σ) (tasks : List (Task σ)) :
    weightThrough (t :: tasks) 0 = t.weight := by
  simp [weightThrough]

lemma weightThrough_cons_succ (t : Task σ) (tasks : List (Task σ)) (i : Nat) :
    weightThrough (t :: tasks) (i + 1) = t.weight + weightThrough tasks i := by
  simp [weightThrough]

lemma weight_le_weightThrough (t : Task σ) (tasks : List (Task σ)) (i : Nat) :
    t.weight ≤ weightThrough (t :: tasks) i := by
  simp [weightThrough]

/-- The next place adds its own weight. -/
lemma weightThrough_succ {tasks : List (Task σ)} {i : Nat} {t : Task σ}
    (h : tasks[i + 1]? = some t) :
    weightThrough tasks (i + 1) = weightThrough tasks i + t.weight := by
  rw [weightThrough, List.take_add_one, h]
  simp [weightThrough]

lemma TaskSet.totalWeight_eq_sum (s : TaskSet σ) :
    s.totalWeight = (s.tasks.map Task.weight).sum := by
  rw [totalWeight]
  induction s.tasks with
  | nil => rfl
  | cons t tasks ih => simp [ih]

lemma weightThrough_le_totalWeight (s : TaskSet σ) (i : Nat) :
    weightThrough s.tasks i ≤ s.totalWeight := by
  rw [s.totalWeight_eq_sum, weightThrough]
  exact ((List.take_sublist _ _).map _).sum_le_sum fun _ _ => Nat.zero_le _

lemma weightThrough_eq_totalWeight {s : TaskSet σ} {i : Nat} (h : s.tasks.length ≤ i + 1) :
    weightThrough s.tasks i = s.totalWeight := by
  rw [s.totalWeight_eq_sum, weightThrough, List.take_of_length_le h]

/-! ### The selected task -/

/-- A task is picked at the place of the draw, whatever the unit is in which the draw is counted. -/
lemma getElem?_pickPlace {unit : Nat} (hunit : 0 < unit) (t : Task σ) (others : List (Task σ))
    (draw : Nat) :
    (t :: others)[pickPlace t others (draw / unit)]? = some (pick unit t others draw) := by
  have hpos : (0 : ℚ) < unit := Nat.cast_pos.2 hunit
  induction others generalizing t draw with
  | nil => rfl
  | cons u us ih =>
    have hreached : (draw / unit : ℚ) ≤ t.weight ↔ draw ≤ unit * t.weight := by
      rw [div_le_iff₀' hpos]
      norm_cast
    rw [pick, pickPlace]
    by_cases h : draw ≤ unit * t.weight
    · rw [if_pos h, if_pos (hreached.2 h)]
      rfl
    · have hleft : (draw / unit - t.weight : ℚ) = (draw - unit * t.weight : Nat) / unit := by
        rw [Nat.cast_sub (Nat.le_of_not_le h), Nat.cast_mul]
        field_simp
      rw [if_neg h, if_neg (hreached.not.2 h), List.getElem?_cons_succ, hleft]
      exact ih u _

/-- A task is found by a place as soon as the weights through it reach the draw, and at the last
place in any case. -/
lemma pickPlace_le_iff {t : Task σ} {others : List (Task σ)} {draw : ℚ} {i : Nat} :
    pickPlace t others draw ≤ i ↔
      others.length ≤ i ∨ draw ≤ weightThrough (t :: others) i := by
  induction others generalizing t draw i with
  | nil => simp [pickPlace]
  | cons u us ih =>
    rw [pickPlace]
    by_cases h : draw ≤ t.weight
    · have hweight : (t.weight : ℚ) ≤ weightThrough (t :: u :: us) i :=
        Nat.cast_le.2 (weight_le_weightThrough t _ i)
      simp [h, h.trans hweight]
    · cases i with
      | zero => simp [h, weightThrough_cons_zero]
      | succ i =>
        rw [if_neg h, Nat.add_le_add_iff_right, ih, List.length_cons, Nat.add_le_add_iff_right,
          weightThrough_cons_succ, Nat.cast_add, sub_le_iff_le_add']

namespace Template

variable (t : Template σ)

lemma getElem?_placeAt {unit : Nat} (hunit : 0 < unit) (draw : Nat) :
    t.taskSet.tasks[t.placeAt (draw / unit)]? = some (pick unit t.first t.others draw) := by
  rw [t.tasks_eq]
  exact getElem?_pickPlace hunit t.first t.others draw

variable {t}

lemma placeAt_le_iff {draw : ℚ} (hdraw : draw ≤ t.taskSet.totalWeight) {i : Nat} :
    t.placeAt draw ≤ i ↔ draw ≤ weightThrough t.taskSet.tasks i := by
  rw [placeAt, pickPlace_le_iff, ← t.tasks_eq]
  refine or_iff_right_of_imp fun hlast => ?_
  rwa [weightThrough_eq_totalWeight (by simpa [t.tasks_eq] using hlast)]

/-- A draw up to the total weight selects the first task at which the weights so far reach it. -/
lemma isLeast_placeAt {draw : ℚ} (hdraw : draw ≤ t.taskSet.totalWeight) :
    IsLeast {i | draw ≤ weightThrough t.taskSet.tasks i} (t.placeAt draw) :=
  ⟨(placeAt_le_iff hdraw).1 le_rfl, fun _ hi => (placeAt_le_iff hdraw).2 hi⟩

lemma placeAt_lt_length (draw : ℚ) : t.placeAt draw < t.taskSet.tasks.length := by
  rw [t.tasks_eq, List.length_cons, Nat.lt_succ_iff]
  exact pickPlace_le_iff.2 (.inl le_rfl)

lemma totalWeight_pos (t : Template σ) : 0 < t.taskSet.totalWeight := by
  have hfirst : 0 < t.first.weight := t.weight_pos _ (by simp [t.tasks_eq])
  have hle : t.first.weight ≤ weightThrough t.taskSet.tasks 0 := by
    rw [t.tasks_eq]
    exact weight_le_weightThrough _ _ _
  exact hfirst.trans_le (hle.trans (weightThrough_le_totalWeight _ _))

end Template

/-! ### Counting draws -/

/-- Of draws spread evenly over a total weight, those up to some weight are its share of them, and
at most one more. -/
lemma card_draws_le {draws total weight : Nat} (hdraws : 0 < draws) (htotal : 0 < total)
    (hweight : weight ≤ total) :
    (draws * weight / total : ℚ) ≤
        ((Finset.range draws).filter fun k : Nat => (k * total / draws : ℚ) ≤ weight).card ∧
      (((Finset.range draws).filter fun k : Nat => (k * total / draws : ℚ) ≤ weight).card : ℚ) ≤
        draws * weight / total + 1 := by
  have hpos : (0 : ℚ) < draws := Nat.cast_pos.2 hdraws
  have hpos' : (0 : ℚ) < total := Nat.cast_pos.2 htotal
  have hreached : ∀ k : Nat, (k * total / draws : ℚ) ≤ weight ↔ k ≤ draws * weight / total := by
    intro k
    rw [div_le_iff₀' hpos, Nat.le_div_iff_mul_le htotal]
    norm_cast
  have hrange : ((Finset.range draws).filter fun k : Nat => (k * total / draws : ℚ) ≤ weight) =
      Finset.range (min draws (draws * weight / total + 1)) := by
    ext k
    simp only [Finset.mem_filter, Finset.mem_range, hreached, lt_min_iff, Nat.lt_succ_iff]
  rw [hrange, Finset.card_range]
  constructor
  · rw [Nat.cast_min, le_min_iff, div_le_iff₀ hpos', div_le_iff₀ hpos']
    norm_cast
    have hnext := (Nat.lt_mul_div_succ (draws * weight) htotal).le
    rw [Nat.mul_comm total] at hnext
    exact ⟨Nat.mul_le_mul_left _ hweight, hnext⟩
  · have hfloor : ((draws * weight / total : Nat) : ℚ) ≤ draws * weight / total := by
      rw [← Nat.cast_mul]
      exact Nat.cast_div_le
    calc ((min draws (draws * weight / total + 1) : Nat) : ℚ)
        ≤ (draws * weight / total + 1 : Nat) := Nat.cast_le.2 (Nat.min_le_right _ _)
      _ = (draws * weight / total : Nat) + 1 := Nat.cast_succ _
      _ ≤ draws * weight / total + 1 := by linarith

lemma card_filter_le_succ (s : Finset Nat) (f : Nat → Nat) (i : Nat) :
    (s.filter fun k => f k ≤ i + 1).card =
      (s.filter fun k => f k ≤ i).card + (s.filter fun k => f k = i + 1).card := by
  rw [← Finset.card_union_of_disjoint, ← Finset.filter_or]
  · simp only [Nat.le_succ_iff]
  · refine Finset.disjoint_filter.2 fun k _ hle heq => ?_
    omega

namespace Template

variable {t : Template σ}

/-- Each task gets its share of evenly spread draws, give or take one. -/
lemma card_placeAt_eq {draws : Nat} (hdraws : 0 < draws) {i : Nat} {task : Task σ}
    (htask : t.taskSet.tasks[i]? = some task) :
    |(((Finset.range draws).filter fun k : Nat =>
        t.placeAt (k * t.taskSet.totalWeight / draws) = i).card : ℚ) -
      draws * task.weight / t.taskSet.totalWeight| ≤ 1 := by
  have hpos : (0 : ℚ) < draws := Nat.cast_pos.2 hdraws
  -- The tasks up to a place are selected by the draws up to the weight through it.
  have hthrough : ∀ i, (Finset.range draws).filter
        (fun k : Nat => t.placeAt (k * t.taskSet.totalWeight / draws) ≤ i) =
      (Finset.range draws).filter (fun k : Nat =>
        (k * t.taskSet.totalWeight / draws : ℚ) ≤ weightThrough t.taskSet.tasks i) := by
    intro i
    refine Finset.filter_congr fun k hk => placeAt_le_iff ?_
    rw [div_le_iff₀' hpos]
    exact_mod_cast Nat.mul_le_mul_right _ (Finset.mem_range.1 hk).le
  have hcount := fun i => card_draws_le hdraws t.totalWeight_pos
    (weightThrough_le_totalWeight t.taskSet i)
  cases i with
  | zero =>
    have hweight : weightThrough t.taskSet.tasks 0 = task.weight := by
      rw [t.tasks_eq] at htask ⊢
      cases htask
      exact weightThrough_cons_zero _ _
    obtain ⟨hge, hle⟩ := hcount 0
    rw [← hthrough, hweight] at hge hle
    simp only [Nat.le_zero] at hge hle
    rw [abs_le]
    constructor <;> linarith
  | succ i =>
    have hsplit := card_filter_le_succ (Finset.range draws)
      (fun k => t.placeAt (k * t.taskSet.totalWeight / draws)) i
    obtain ⟨hge, hle⟩ := hcount i
    obtain ⟨hge', hle'⟩ := hcount (i + 1)
    rw [← hthrough] at hge hle
    rw [← hthrough, hsplit, weightThrough_succ htask, Nat.cast_add, Nat.cast_add, mul_add,
      add_div] at hge' hle'
    rw [abs_le]
    constructor <;> linarith

/-- The one draw is needed: two of four draws select a task with a quarter of the weight. -/
example :
    let look : Task Unit := { name := "look", weight := 1, run := fun s => .finish s none }
    let buy : Task Unit := { name := "buy", weight := 3, run := fun s => .finish s none }
    (((Finset.range 4).filter fun k : Nat => pickPlace look [buy] (k * 4 / 4) = 0).card,
      ((Finset.range 4).filter fun k : Nat => pickPlace look [buy] (k * 4 / 4) = 1).card) =
      (2, 2) := by
  decide +kernel

/-- From two tasks or more, a draw selects the first one at which the weights so far reach it. Of
`drawUnit` draws, spread evenly over the total weight, each task gets its share, give or take one
draw. A lone task is selected without a draw. -/
theorem select_by_share (t : Template σ) :
    (t.others = [] → t.draws = false ∧ ∀ word, t.select word = t.first) ∧
    (t.others ≠ [] → t.draws = true ∧
      (∀ word, t.taskSet.tasks[t.placeAt (drawOf t.taskSet.totalWeight word / drawUnit)]? =
        some (t.select word)) ∧
      (∀ unit draw : Nat, 0 < unit →
        t.taskSet.tasks[t.placeAt (draw / unit)]? = some (pick unit t.first t.others draw)) ∧
      (∀ draw : ℚ, 0 ≤ draw → draw < t.taskSet.totalWeight →
        t.placeAt draw < t.taskSet.tasks.length ∧
          IsLeast {i | draw ≤ weightThrough t.taskSet.tasks i} (t.placeAt draw)) ∧
      ∀ (i : Nat) (task : Task σ), t.taskSet.tasks[i]? = some task →
        |(((Finset.range drawUnit).filter fun k : Nat =>
            t.placeAt (k * t.taskSet.totalWeight / drawUnit) = i).card : ℚ) -
          drawUnit * task.weight / t.taskSet.totalWeight| ≤ 1) := by
  have hunit : 0 < drawUnit := Nat.two_pow_pos 52
  refine ⟨fun hlone => ⟨by simp [draws, hlone], fun word => by rw [select, hlone, pick]⟩,
    fun hothers => ⟨by simp [draws, hothers], fun word => t.getElem?_placeAt hunit _,
      fun unit draw hunit => t.getElem?_placeAt hunit draw,
      fun draw _ hdraw => ⟨placeAt_lt_length draw, isLeast_placeAt hdraw.le⟩,
      fun i task htask => card_placeAt_eq hunit htask⟩⟩

end Template

end LoadTest
