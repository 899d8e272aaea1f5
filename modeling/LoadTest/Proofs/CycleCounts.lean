import LoadTest.Proofs.Course

/-!
# How many cycles a user has completed

A user that goes on by itself counts its cycles in 32 bits. The cycles that it has really completed
are counted here without a bound, step by step, and compared with its counter. A bound on the cycles
keeps the counter exact. Without one it is exact up to multiples of 2³², and no user ends because of
it.
-/

namespace LoadTest

variable {σ : Type}

/-! ### Cycles in a history -/

/-- What has happened in a number of cycles that have all succeeded, with the check before each. -/
inductive Rounds (t : Template σ) : Nat → List (LifeEvent σ) → Prop
  | zero : Rounds t 0 []
  | succ {n : Nat} {cycle rest : List (LifeEvent σ)} (hcycle : t.Cycle cycle none)
      (hrest : Rounds t n rest) : Rounds t (n + 1) (.checks true false :: (cycle ++ rest))

def LifeEvent.isCheck : LifeEvent σ → Bool
  | .checks _ _ => true
  | _ => false

lemma CycleRun.countP_isCheck {calls : List (Call σ)} {pause : Millis}
    {events : List (LifeEvent σ)} {failure : Option String}
    (h : CycleRun calls pause events failure) : events.countP LifeEvent.isCheck = 0 := by
  induction h with
  | ends => rfl
  | pauses => rfl
  | succeeds hrest ih => exact ih
  | goesOn hlogged hrest ih => exact ih
  | fails hfatal => rfl

/-- There are as many rounds as checks. -/
lemma Rounds.countP_isCheck {t : Template σ} {n : Nat} {events : List (LifeEvent σ)}
    (h : Rounds t n events) : events.countP LifeEvent.isCheck = n := by
  induction h with
  | zero => rfl
  | succ hcycle hrest ih =>
    obtain ⟨word, hrun⟩ := hcycle
    rw [List.countP_cons, List.countP_append, hrun.countP_isCheck, ih, Nat.zero_add]
    rfl

/-- Cycles that end without a failure are some rounds and a last check. -/
lemma Cycles.exists_rounds {t : Template σ} {left : Option Nat} {events : List (LifeEvent σ)}
    (h : Cycles t left events none) :
    ∃ n past active raised, Rounds t n past ∧ events = past ++ [.checks active raised] := by
  generalize hfailure : none = failure at h
  induction h with
  | @stops left active raised => exact ⟨0, [], active, raised, .zero, rfl⟩
  | fails => cases hfailure
  | goesOn hleft hcycle hrest ih =>
    obtain ⟨n, past, active, raised, hpast, rfl⟩ := ih hfailure
    exact ⟨n + 1, _, active, raised, .succ hcycle hpast, by simp⟩

/-- A life that ends with a check and the tear-down has been rounds before, after the set-up. -/
lemma Life.rounds_of_check {t : Template σ} {l : Lifecycle} {past : List (LifeEvent σ)}
    {fate : Fate} {active raised : Bool} {second : Option String} (hl : l ≠ .regular)
    (h : Life t l (past ++ .checks active raised :: tearingDown second) fate)
    (hfate : fate = .over none second) :
    ∃ rounds, past = .calls .setUp :: .returns .setUp none :: rounds ∧
      Rounds t (past.countP LifeEvent.isCheck) rounds := by
  generalize hevents : past ++ .checks active raised :: tearingDown second = events at h
  cases h with
  | unmade => cases hfate
  | notSetUp => cases hfate
  | regular => exact absurd rfl hl
  | @goesOn l cycles failure second hmode hcycles =>
    cases hfate
    obtain ⟨n, rounds, active', raised', hrounds, rfl⟩ := hcycles.exists_rounds
    have hpast : past = .calls .setUp :: .returns .setUp none :: rounds := by
      have h : (past ++ [.checks active raised]) ++ tearingDown second =
          (.calls .setUp :: .returns .setUp none :: rounds ++ [.checks active' raised']) ++
            tearingDown second := by
        simpa using hevents
      exact (List.append_inj' (List.append_cancel_right h) rfl).1
    refine ⟨rounds, hpast, ?_⟩
    rw [hpast]
    show Rounds t (rounds.countP LifeEvent.isCheck) rounds
    rw [hrounds.countP_isCheck]
    exact hrounds

/-! ### The counter -/

/-- The count of completed cycles that a user keeps as long as it is within its cycles. -/
def Phase.counter? : Phase σ → Option UInt32
  | .calling (.cycle completed _ _ _) _ => some completed
  | .pausing _ completed _ => some completed
  | .yielding _ completed => some completed
  | .deciding _ completed => some completed
  | _ => none

/-- What is known inside a cycle, with `n` cycles completed before and after so many checks. -/
structure InCycle (l : Lifecycle) (n checks : Nat) (counter : UInt32) : Prop where
  counter_eq : counter = UInt32.ofNat n
  lt_limit : ∀ limit, l.limit? = some limit → n < limit.toNat
  checks_eq : l ≠ .regular → checks = n + 1

/-- What is known between cycles. -/
structure BetweenCycles (l : Lifecycle) (n checks : Nat) (counter : UInt32) : Prop where
  counter_eq : counter = UInt32.ofNat n
  le_limit : ∀ limit, l.limit? = some limit → n ≤ limit.toNat
  checks_eq : checks = n

/-- A user in a phase has completed `n` cycles, and has looked so often whether it may go on. -/
def Phase.Counts (l : Lifecycle) (n checks : Nat) : Phase σ → Prop
  | .launched => n = 0 ∧ checks = 0
  | .arrived => n = 0 ∧ checks = 0
  | .calling .setUp _ => n = 0 ∧ checks = 0
  | .calling (.cycle completed _ _ _) _ => InCycle l n checks completed
  | .calling (.tearDown _) _ => ∀ limit, l.limit? = some limit → n ≤ limit.toNat
  | .pausing _ completed _ => InCycle l n checks completed
  | .yielding _ completed => BetweenCycles l n checks completed
  | .deciding _ completed => BetweenCycles l n checks completed
  | .ended => ∀ limit, l.limit? = some limit → n ≤ limit.toNat

lemma Phase.Counts.le_limit {l : Lifecycle} {n checks : Nat} {p : Phase σ} (h : p.Counts l n checks)
    {limit : UInt32} (hlimit : l.limit? = some limit) : n ≤ limit.toNat := by
  have hin : ∀ {counter}, InCycle l n checks counter → n ≤ limit.toNat :=
    fun h => Nat.le_of_lt (h.lt_limit limit hlimit)
  have hbetween : ∀ {counter}, BetweenCycles l n checks counter → n ≤ limit.toNat :=
    fun h => h.le_limit limit hlimit
  cases p with
  | launched => exact h.1 ▸ Nat.zero_le _
  | arrived => exact h.1 ▸ Nat.zero_le _
  | calling stage a =>
    cases stage with
    | setUp => exact h.1 ▸ Nat.zero_le _
    | cycle completed call left pause => exact hin h
    | tearDown first => exact h limit hlimit
  | pausing state completed wakeAt => exact hin h
  | yielding state completed => exact hbetween h
  | deciding state completed => exact hbetween h
  | ended => exact h limit hlimit

lemma Phase.Counts.counter_eq {l : Lifecycle} {n checks : Nat} {p : Phase σ}
    (h : p.Counts l n checks) {counter : UInt32} (hcounter : p.counter? = some counter) :
    counter = UInt32.ofNat n := by
  cases p with
  | calling stage a =>
    cases stage with
    | cycle completed call left pause =>
      cases hcounter
      exact InCycle.counter_eq h
    | _ => cases hcounter
  | pausing state completed wakeAt =>
    cases hcounter
    exact InCycle.counter_eq h
  | yielding state completed =>
    cases hcounter
    exact BetweenCycles.counter_eq h
  | deciding state completed =>
    cases hcounter
    exact BetweenCycles.counter_eq h
  | _ => cases hcounter

/-- Completing a cycle moves the counter on, around from its greatest value to 0. -/
lemma ofNat_succ (n : Nat) : UInt32.ofNat n + 1 = UInt32.ofNat (n + 1) := by
  rw [UInt32.ofNat_add]
  rfl

namespace User

variable {u : User σ} {v : View} {n checks : Nat}

/-- Does the user give way to others, after a cycle that has succeeded? -/
def isGivingWay (u : User σ) : Bool :=
  match u.phase with
  | .yielding _ _ => true
  | _ => false

/-- Does the user complete a cycle at a step? Then it is inside the cycle before, and gives way to
others after it. -/
def completes (u : User σ) (v : View) : Bool := u.isCycling && (u.step v).1.isGivingWay

/-- A counter below the bound is exact, so the user is done when it has completed all its cycles. -/
lemma isDone_ofNat (hle : ∀ limit, u.lifecycle.limit? = some limit → n ≤ limit.toNat) :
    u.isDone (UInt32.ofNat n) = true ↔ u.lifecycle.limit?.map UInt32.toNat = some n := by
  rw [isDone]
  cases hlimit : u.lifecycle.limit? with
  | none => simp
  | some limit =>
    have hn := hle limit hlimit
    have hexact : (UInt32.ofNat n).toNat = n :=
      UInt32.toNat_ofNat_of_lt' (Nat.lt_of_le_of_lt hn limit.toNat_lt)
    simp only [Option.any_some, decide_eq_true_eq, UInt32.le_iff_toNat_le, hexact,
      Option.map_some, Option.some.injEq]
    omega

/-- What a user decides depends on the cycles that it has completed, and the counter is only logged.
-/
lemma decide_eq {completed : UInt32} (h : BetweenCycles u.lifecycle n checks completed) (v : View)
    (state : σ) :
    u.decide v state completed =
      if v.active = true ∧ v.run.raised = false ∧
          u.lifecycle.limit?.map UInt32.toNat ≠ some n then
        (u.beginCycle state completed, [])
      else
        (u.tearDown state none, [.log ⟨.debug, s!"Exiting after {n % UInt32.size} cycle(s)"⟩]) := by
  have hdone : u.isDone completed = true ↔ u.lifecycle.limit?.map UInt32.toNat = some n := by
    rw [h.counter_eq, isDone_ofNat h.le_limit]
  have hreport : s!"Exiting after {completed} cycle(s)" =
      s!"Exiting after {n % UInt32.size} cycle(s)" := by
    have hcounter : completed.toNat = n % UInt32.size := by
      rw [h.counter_eq]
      exact UInt32.toNat_ofNat'
    rw [← hcounter]
    rfl
  rw [decide, hreport]
  refine if_congr ?_ rfl rfl
  simp only [Bool.and_eq_true, Bool.not_eq_true', ← Bool.not_eq_true (isDone _ _), hdone, and_assoc,
    ne_eq]

/-- A cycle that is over is one more that is completed, if the user goes on by itself. -/
lemma counts_endCycle {state : σ} {completed : UInt32}
    (h : InCycle u.lifecycle n checks completed) :
    (u.endCycle state completed).phase.Counts u.lifecycle
      (n + if (u.endCycle state completed).isGivingWay then 1 else 0) checks := by
  by_cases hl : u.lifecycle = .regular
  · rw [endCycle_of_regular hl]
    exact fun limit hlimit => Nat.le_of_lt (h.lt_limit limit hlimit)
  · rw [endCycle_of_ne_regular hl]
    exact ⟨by rw [h.counter_eq, ofNat_succ]; rfl, fun limit hlimit => h.lt_limit limit hlimit,
      h.checks_eq hl⟩

lemma counts_returned_cycle {now : Millis} {state : σ} {completed : UInt32} {call : Call σ}
    {left : List (Call σ)} {pause : Millis} {failure : Option String}
    (h : InCycle u.lifecycle n checks completed) :
    (u.returned now (.cycle completed call left pause) state failure).1.phase.Counts u.lifecycle
      (n + if (u.returned now (.cycle completed call left pause) state failure).1.isGivingWay then 1
        else 0) checks := by
  rcases call.goesOn_or_fatal failure with hgoes | ⟨reason, rfl, hfatal⟩
  · obtain ⟨report, hu⟩ := @returned_cycle σ u now state completed call left pause failure hgoes
    rw [hu]
    cases left with
    | cons next left => exact h
    | nil =>
      by_cases hpause : pause = 0
      · simp only [hpause, if_true]
        exact counts_endCycle h
      · simp only [hpause, if_false]
        exact h
  · rw [returned_of_fatal hfatal]
    exact fun limit hlimit => Nat.le_of_lt (h.lt_limit limit hlimit)

lemma counts_returned_setUp {now : Millis} {state : σ} {failure : Option String} :
    (u.returned now .setUp state failure).1.phase.Counts u.lifecycle 0 0 ∧
      (u.returned now .setUp state failure).1.isGivingWay = false := by
  cases failure with
  | some reason => exact ⟨fun limit _ => Nat.zero_le _, rfl⟩
  | none =>
    by_cases hl : u.lifecycle = .regular
    · rw [returned_setUp_of_regular hl, hl]
      have hlimit : ∀ limit, Lifecycle.regular.limit? = some limit → 0 < limit.toNat := by
        simp [Lifecycle.limit?]
      exact ⟨⟨rfl, hlimit, fun h => absurd rfl h⟩, rfl⟩
    · rw [returned_setUp_of_ne_regular hl]
      exact ⟨⟨rfl, fun limit _ => Nat.zero_le _, rfl⟩, rfl⟩

lemma counts_decide {state : σ} {completed : UInt32}
    (h : BetweenCycles u.lifecycle n checks completed) :
    (u.decide v state completed).1.phase.Counts u.lifecycle n (checks + 1) := by
  rw [decide_eq h]
  split_ifs with hgoes
  · refine ⟨h.counter_eq, fun limit hlimit => ?_, fun _ => by rw [h.checks_eq]⟩
    refine Nat.lt_of_le_of_ne (h.le_limit limit hlimit) fun heq => hgoes.2.2 ?_
    rw [hlimit, heq, Option.map_some]
  · exact h.le_limit

lemma completes_of_not_isCycling (h : u.isCycling = false) : u.completes v = false := by
  rw [completes, h, Bool.false_and]

lemma completes_of_step {u' : User σ} {effects : List Effect} (hcycling : u.isCycling = true)
    (h : u.step v = (u', effects)) : u.completes v = u'.isGivingWay := by
  rw [completes, hcycling, h, Bool.true_and]

/-- A step inside a callback that is not cut short keeps the counter. -/
lemma counts_calling {stage : Stage σ} {a : Activation σ} (hphase : u.phase = .calling stage a)
    (hcut : u.isCutShort v = false) (h : (Phase.calling stage a).Counts u.lifecycle n checks) :
    (u.step v).1.phase.Counts u.lifecycle (n + if u.completes v then 1 else 0) checks := by
  cases hstep : (a.step v.now (some v.run)).1 with
  | going a' =>
    have hu := (step_of_going hphase hcut hstep).1
    have hcompletes : u.completes v = false := by rw [completes, hu]; exact Bool.and_false _
    rw [hcompletes, hu]
    cases stage <;> exact h
  | returned state failure =>
    have hu := (step_of_returned hphase hstep).1
    cases stage with
    | setUp =>
      obtain ⟨rfl, rfl⟩ := h
      rw [completes_of_not_isCycling (by simp [isCycling, hphase]), hu]
      exact counts_returned_setUp.1
    | cycle completed call left pause =>
      rw [completes_of_step (by simp [isCycling, hphase]) hu, hu]
      exact counts_returned_cycle h
    | tearDown first =>
      rw [completes_of_not_isCycling (by simp [isCycling, hphase]), hu]
      cases first <;> cases failure <;> exact h
  | panicked => simp [isCutShort, panics, hphase, hstep] at hcut

lemma exists_of_isDeciding (h : u.isDeciding = true) :
    ∃ state completed, u.phase = .deciding state completed := by
  cases hphase : u.phase with
  | deciding state completed => exact ⟨state, completed, rfl⟩
  | _ => simp [isDeciding, hphase] at h

lemma counts_step_of_cutShort (hcut : u.isCutShort v) (h : u.phase.Counts u.lifecycle n checks)
    (checks' : Nat) :
    (u.step v).1.phase.Counts u.lifecycle (n + if u.completes v then 1 else 0) checks' := by
  have hended := (step_of_isCutShort hcut).1
  have hcompletes : u.completes v = false := by simp [completes, isGivingWay, hended]
  rw [hended, hcompletes]
  exact fun limit hlimit => h.le_limit hlimit

/-- A step in which nothing is decided keeps the counter at the number of cycles that have been
completed. -/
lemma counts_step_of_not_isDeciding (hdeciding : u.isDeciding = false)
    (hcut : u.isCutShort v = false) (h : u.phase.Counts u.lifecycle n checks) :
    (u.step v).1.phase.Counts u.lifecycle (n + if u.completes v then 1 else 0) checks := by
  cases hphase : u.phase with
  | launched =>
    rw [hphase] at h
    rw [completes_of_not_isCycling (by simp [isCycling, hphase]), (step_of_launched hphase).1]
    exact h
  | arrived =>
    rw [hphase] at h
    rw [completes_of_not_isCycling (by simp [isCycling, hphase])]
    cases hcreate : u.template.create v.nextInstance with
    | error reason =>
      obtain ⟨rfl, rfl⟩ := h
      rw [(step_of_unmade hphase hcreate).1]
      exact fun limit _ => Nat.zero_le _
    | panic reason =>
      obtain ⟨rfl, rfl⟩ := h
      rw [(step_of_lost hphase hcreate).1]
      exact fun limit _ => Nat.zero_le _
    | ok state =>
      rw [(step_of_made hphase hcreate).1]
      exact h
  | calling stage a =>
    rw [hphase] at h
    exact counts_calling hphase hcut h
  | pausing state completed wakeAt =>
    rw [hphase] at h
    have hu := (step_of_pausing hphase hcut).1
    rw [completes_of_step (by simp [isCycling, hphase]) hu, hu]
    exact counts_endCycle h
  | yielding state completed =>
    rw [hphase] at h
    rw [completes_of_not_isCycling (by simp [isCycling, hphase]), (step_of_yielding hphase hcut).1]
    exact h
  | deciding state completed => simp [isDeciding, hphase] at hdeciding
  | ended =>
    rw [hphase] at h
    rw [completes_of_not_isCycling (by simp [isCycling, hphase]), (step_of_ended hphase).1, hphase]
    exact h

/-- A step keeps the counter at the number of cycles that have been completed. -/
lemma counts_step (h : u.phase.Counts u.lifecycle n checks) :
    (u.step v).1.phase.Counts u.lifecycle (n + if u.completes v then 1 else 0)
      (checks + if u.isDeciding then 1 else 0) := by
  cases hcut : u.isCutShort v with
  | true => exact counts_step_of_cutShort hcut h _
  | false =>
    cases hdeciding : u.isDeciding with
    | false => exact counts_step_of_not_isDeciding hdeciding hcut h
    | true =>
      obtain ⟨state, completed, hphase⟩ := exists_of_isDeciding hdeciding
      rw [hphase] at h
      rw [completes_of_not_isCycling (by simp [isCycling, hphase]), (step_of_deciding hphase).1]
      exact counts_decide h

/-- A user looks whether it may go on in the steps in which it is to decide. -/
lemma countP_isCheck_events (u : User σ) (v : View) :
    (u.events v).countP LifeEvent.isCheck = if u.isDeciding then 1 else 0 := by
  have hentered : ∀ p : Phase σ, (p.entered v.now).countP LifeEvent.isCheck = 0 := by
    intro p
    cases p <;> rfl
  have hbeginning : (u.beginning v).countP LifeEvent.isCheck = 0 := by
    rw [beginning]
    split_ifs
    · rfl
    · exact hentered _
  have hreturning : ((u.returning? v).toList.map fun r => LifeEvent.returns r.1 r.2).countP
      LifeEvent.isCheck = 0 := by
    cases u.returning? v <;> rfl
  rw [events, List.countP_append, List.countP_append, hbeginning, hreturning]
  split_ifs <;> rfl

end User

/-! ### Runs -/

namespace Surroundings

variable (s : Surroundings)

/-- How many cycles a user has completed in a number of steps. -/
def cyclesDone (s : Surroundings) (u : User σ) : Nat → Nat
  | 0 => 0
  | k + 1 => s.cyclesDone u k + if (s.after u k).completes (s.view k) then 1 else 0

lemma counts_after {u : User σ} (hphase : u.phase = .launched) (k : Nat) :
    (s.after u k).phase.Counts u.lifecycle (s.cyclesDone u k)
      ((s.history u k).countP LifeEvent.isCheck) := by
  have hfits : u.phase.Fits u.lifecycle := by
    rw [hphase]
    trivial
  induction k with
  | zero =>
    rw [after, hphase]
    exact ⟨rfl, rfl⟩
  | succ k ih =>
    obtain ⟨-, hlifecycle, -⟩ := s.after_keeps hfits k
    rw [cyclesDone, history, List.countP_append, User.countP_isCheck_events]
    rw [← hlifecycle] at ih ⊢
    exact User.counts_step ih

/-- A user that is to decide has completed as many rounds as it has counted. -/
lemma rounds_of_deciding {t : Template σ} {l : Lifecycle} {ticket k : Nat} {state : σ}
    {completed : UInt32}
    (hdeciding : (s.after { template := t, lifecycle := l, ticket } k).phase =
      .deciding state completed) :
    ∃ rounds, s.history { template := t, lifecycle := l, ticket } k =
        .calls .setUp :: .returns .setUp none :: rounds ∧
      Rounds t (s.cyclesDone { template := t, lifecycle := l, ticket } k) rounds := by
  generalize hu : ({ template := t, lifecycle := l, ticket } : User σ) = u at hdeciding ⊢
  have hphase : u.phase = .launched := by rw [← hu]
  have hfits : u.phase.Fits u.lifecycle := by
    rw [hphase]
    trivial
  have hcut : ∀ j < k, s.cutsShort u j = false := by
    intro j hj
    by_contra hcut
    have hended := (s.over_of_cutsShort (Bool.not_eq_false _ ▸ hcut) hj).1
    rw [hdeciding] at hended
    cases hended
  have hl : u.lifecycle ≠ .regular := by
    obtain ⟨-, -, hfit⟩ := s.after_keeps hfits k
    rw [hdeciding] at hfit
    exact hfit
  -- The user may be stopped at this check, and then all of its life is known.
  have hahead : (s.after u k).phase.Ahead u.template u.lifecycle
      (.checks false true :: tearingDown none) (.over none none) := by
    rw [hdeciding]
    exact ⟨hl, [.checks false true], none, none, .stops (.inl rfl), rfl, rfl⟩
  have hlife := s.ahead_after hfits hcut hahead
  rw [hphase] at hlife
  obtain ⟨rounds, hhistory, hrounds⟩ := Life.rounds_of_check hl hlife rfl
  have hcounts := s.counts_after hphase k
  rw [hdeciding] at hcounts
  rw [BetweenCycles.checks_eq hcounts, ← hu] at hrounds
  exact ⟨rounds, hhistory, hu ▸ hrounds⟩

/-- The counter of a user in any surroundings is the number of cycles that it has really completed,
up to multiples of 2³², and exactly that number if its cycles are bounded. At a check there have
been as many cycles since the set-up, all of which have succeeded, and nothing else. The user then
goes on unless it or its run has been asked to stop or all its cycles are done, whatever its counter
is, and otherwise it logs the counter. -/
theorem counter_of_user (s : Surroundings) (t : Template σ) (l : Lifecycle) (ticket : Nat) :
    let u : User σ := { template := t, lifecycle := l, ticket }
    (∀ k counter, (s.after u k).phase.counter? = some counter →
      counter.toNat = s.cyclesDone u k % UInt32.size) ∧
    (∀ limit, l = .cycled limit → ∀ k, s.cyclesDone u k ≤ limit.toNat ∧
      ∀ counter, (s.after u k).phase.counter? = some counter →
        counter.toNat = s.cyclesDone u k) ∧
    ∀ k state counter, (s.after u k).phase = .deciding state counter →
      (∃ rounds, s.history u k = .calls .setUp :: .returns .setUp none :: rounds ∧
        Rounds t (s.cyclesDone u k) rounds) ∧
      (s.after u k).step (s.view k) =
        if isPast s.stop? k = false ∧ isPast s.raise? k = false ∧
            l.limit?.map UInt32.toNat ≠ some (s.cyclesDone u k) then
          ((s.after u k).beginCycle state counter, [])
        else
          ((s.after u k).tearDown state none,
            [.log ⟨.debug, s!"Exiting after {s.cyclesDone u k % UInt32.size} cycle(s)"⟩]) := by
  intro u
  have hcounts : ∀ k, (s.after u k).phase.Counts l (s.cyclesDone u k)
      ((s.history u k).countP LifeEvent.isCheck) := s.counts_after rfl
  have hcounter : ∀ k counter, (s.after u k).phase.counter? = some counter →
      counter.toNat = s.cyclesDone u k % UInt32.size := by
    intro k counter hcounter
    rw [(hcounts k).counter_eq hcounter]
    exact UInt32.toNat_ofNat'
  refine ⟨hcounter, fun limit hl k => ?_, fun k state counter hdeciding => ?_⟩
  · have hle : s.cyclesDone u k ≤ limit.toNat := (hcounts k).le_limit (by rw [hl]; rfl)
    refine ⟨hle, fun counter h => ?_⟩
    rw [hcounter k counter h]
    exact Nat.mod_eq_of_lt (Nat.lt_of_le_of_lt hle limit.toNat_lt)
  · refine ⟨s.rounds_of_deciding hdeciding, ?_⟩
    obtain ⟨-, hlifecycle, -⟩ := s.after_keeps (u := u) trivial k
    have hbetween := hcounts k
    rw [hdeciding, ← show (s.after u k).lifecycle = l from hlifecycle] at hbetween
    rw [(User.step_of_deciding hdeciding).1, User.decide_eq hbetween, hlifecycle]
    refine if_congr ?_ rfl rfl
    simp only [view, Bool.not_eq_true', u]

end Surroundings

/-! ### A counter that goes around -/

/-- A behavior whose cycles do nothing at all. -/
def idling : Template Unit where
  name := "idling"
  taskSet := { tasks := [{ name := "idle", run := fun s => .finish s none }] }
  create _ := .ok ()
  setUp s := .finish s none
  beforeTask s := .finish s none
  afterTask s := .finish s none
  tearDown s := .finish s none
  word _ _ := 0
  first := { name := "idle", run := fun s => .finish s none }
  others := []
  tasks_eq := rfl
  weight_pos := by simp

def idler : User Unit := { template := idling, lifecycle := .looped, ticket := 0 }

/-- A user is asked to stop at a moment, and nothing else is asked. -/
def Surroundings.stoppedAt (k : Nat) : Surroundings where
  now _ := 0
  runId := "run"
  watchInterval := 1
  succeeded _ := 0
  failed _ := 0
  nextId _ := 0
  nextInstance _ := 0
  stop? := some k
  raise? := none
  abort? := none

namespace Surroundings

/-- A user that idles and is not yet asked to stop completes a cycle in five steps. -/
lemma idler_round {m k : Nat} {completed : UInt32} (hk : k < m)
    (h : (stoppedAt m).after idler k = idler.enter (.deciding () completed)) :
    (stoppedAt m).after idler (k + 5) = idler.enter (.deciding () (completed + 1)) ∧
      (stoppedAt m).cyclesDone idler (k + 5) = (stoppedAt m).cyclesDone idler k + 1 := by
  have hactive : ((stoppedAt m).view k).active = true := by simp [view, isPast, stoppedAt, hk]
  have hbegins : (stoppedAt m).after idler (k + 1) =
      (idler.enter (.deciding () completed)).beginCycle () completed := by
    rw [after, h, (User.step_of_deciding rfl).1, User.decide, if_pos]
    rw [hactive]
    rfl
  -- Three callbacks return one after the other, and the cycle is over with the last of them.
  have hyields : (stoppedAt m).after idler (k + 4) =
      idler.enter (.yielding () (completed + 1)) := by
    rw [after, after, after, hbegins]
    rfl
  refine ⟨by rw [after, hyields]; rfl, ?_⟩
  have hlast : ((stoppedAt m).after idler (k + 3)).completes ((stoppedAt m).view (k + 3)) =
      true := by
    rw [after, after, hbegins]
    rfl
  have hsecond : ((stoppedAt m).after idler (k + 2)).completes ((stoppedAt m).view (k + 2)) =
      false := by
    rw [after, hbegins]
    rfl
  have hfirst : ((stoppedAt m).after idler (k + 1)).completes ((stoppedAt m).view (k + 1)) =
      false := by
    rw [hbegins]
    rfl
  have hcheck : ((stoppedAt m).after idler k).completes ((stoppedAt m).view k) = false := by
    rw [h]
    rfl
  have hyield : ((stoppedAt m).after idler (k + 4)).completes ((stoppedAt m).view (k + 4)) =
      false := by
    rw [hyields]
    rfl
  rw [cyclesDone, cyclesDone, cyclesDone, cyclesDone, cyclesDone, hyield, hlast, hsecond, hfirst,
    hcheck]
  rfl

lemma idler_after {n m : Nat} (hm : 3 + 5 * n ≤ m) :
    (stoppedAt m).after idler (3 + 5 * n) = idler.enter (.deciding () (UInt32.ofNat n)) ∧
      (stoppedAt m).cyclesDone idler (3 + 5 * n) = n := by
  induction n with
  | zero => exact ⟨rfl, rfl⟩
  | succ n ih =>
    obtain ⟨hafter, hdone⟩ := ih (by omega)
    obtain ⟨hround, hnext⟩ := idler_round (by omega) hafter
    rw [ofNat_succ] at hround
    rw [hdone] at hnext
    exact ⟨hround, hnext⟩

/-- A user that is not bounded loses count at its 2³²-th cycle. -/
theorem looped_counter_wraps :
    (stoppedAt (3 + 5 * UInt32.size)).cyclesDone idler (3 + 5 * UInt32.size) = UInt32.size ∧
      ((stoppedAt (3 + 5 * UInt32.size)).after idler (3 + 5 * UInt32.size)).phase.counter? =
        some 0 ∧
      (((stoppedAt (3 + 5 * UInt32.size)).after idler (3 + 5 * UInt32.size)).step
        ((stoppedAt (3 + 5 * UInt32.size)).view (3 + 5 * UInt32.size))).2 =
          [.log ⟨.debug, "Exiting after 0 cycle(s)"⟩] := by
  obtain ⟨hafter, hdone⟩ := idler_after (Nat.le_refl (3 + 5 * UInt32.size))
  refine ⟨hdone, ?_, ?_⟩
  · rw [hafter]
    rfl
  · have hstopped :
        ((stoppedAt (3 + 5 * UInt32.size)).view (3 + 5 * UInt32.size)).active = false := by
      simp [view, isPast, stoppedAt]
    rw [hafter, (User.step_of_deciding rfl).1, User.decide, hstopped]
    rfl

end Surroundings

end LoadTest
