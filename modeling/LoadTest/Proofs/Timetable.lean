import LoadTest.Proofs.OperationTurns

/-!
# Timetables

What a list of work units comes to is known before it is carried out. Each unit has a duration, and
creates its users at instants that depend on its start only. The same goes for every errand that a
unit is about, so that what lies ahead of an operation is a plan, and each step of the operation
carries out the beginning of it.
-/

namespace LoadTest

/-! ### Work units -/

/-- The pause between two changes that are spread over a span of time. -/
def paceOf (amount : Nat) (span : Millis) : Millis := min (span / amount) longestSleep

namespace WorkUnit

/-- How long a work unit takes, unless it waits for users. -/
def duration : WorkUnit → Millis
  | .create amount _ (some span) => amount * paceOf amount span
  | .remove amount _ (some span) => amount * paceOf amount span
  | .delay duration => min duration longestSleep
  | _ => 0

/-- The instants at which a work unit that starts at an instant creates its users, one for each. -/
def creations (start : Millis) : WorkUnit → List Millis
  | .create amount _ none => List.replicate amount start
  | .create amount _ (some span) => (List.range amount).map fun k => start + k * paceOf amount span
  | _ => []

/-- The unit does not wait for users, and is not to spread no change at all. -/
def KeepsTime : WorkUnit → Prop
  | .create amount _ (some _) => 0 < amount
  | .remove amount _ (some _) => 0 < amount
  | .waitForAll => False
  | _ => True

end WorkUnit

def totalDuration (units : List WorkUnit) : Millis := units.foldr (fun u n => u.duration + n) 0

/-- The work units with their starts, where each begins at the end of the one before. -/
def timetable (start : Millis) : List WorkUnit → List (Millis × WorkUnit)
  | [] => []
  | u :: us => (start, u) :: timetable (start + u.duration) us

/-- A unit starts once all units before it have taken their time. -/
lemma getElem?_timetable (start : Millis) (units : List WorkUnit) (k : Nat) :
    (timetable start units)[k]? =
      (units[k]?).map fun u => (start + totalDuration (units.take k), u) := by
  induction units generalizing start k with
  | nil => simp [timetable]
  | cons u us ih =>
    cases k with
    | zero => simp [timetable, totalDuration]
    | succ k =>
      rw [timetable, List.getElem?_cons_succ, ih, List.getElem?_cons_succ, List.take_succ_cons]
      simp [totalDuration, Nat.add_assoc]

/-! ### Plans -/

/-- What is to happen from some instant on: which work units start and when, the instant of each
single creation, and when all is done. -/
structure Plan where
  starts : List (Millis × WorkUnit) := []
  creations : List Millis := []
  finish : Millis

namespace Plan

/-- One plan after another. -/
def andThen (p q : Plan) : Plan where
  starts := p.starts ++ q.starts
  creations := p.creations ++ q.creations
  finish := q.finish

/-- What happens at one instant: the starts of some units and some creations. -/
def opening (now : Millis) (units : List WorkUnit) (created : Nat) : Plan where
  starts := units.map fun u => (now, u)
  creations := List.replicate created now
  finish := now

/-- A plan after which nothing more is to happen. -/
def rest (now : Millis) : Plan := { finish := now }

@[simp] lemma andThen_rest (p : Plan) : p.andThen (rest p.finish) = p := by
  simp [andThen, rest]

@[simp] lemma rest_andThen (now : Millis) (p : Plan) : (rest now).andThen p = p := by
  simp [andThen, rest]

@[simp] lemma opening_andThen (now : Millis) (p : Plan) : (opening now [] 0).andThen p = p := by
  simp [andThen, opening]

lemma andThen_assoc (p q r : Plan) : (p.andThen q).andThen r = p.andThen (q.andThen r) := by
  simp [andThen]

/-- All instants at which something is to happen. -/
def instants (p : Plan) : List Millis := p.starts.map Prod.fst ++ p.creations ++ [p.finish]

/-- Nothing is to happen before an instant. -/
def NotBefore (p : Plan) (now : Millis) : Prop := ∀ t ∈ p.instants, now ≤ t

lemma NotBefore.finish {p : Plan} {now : Millis} (h : p.NotBefore now) : now ≤ p.finish :=
  h _ (by simp [instants])

lemma NotBefore.andThen {p q : Plan} {now : Millis} (hp : p.NotBefore now)
    (hq : q.NotBefore p.finish) : (p.andThen q).NotBefore now := by
  have hle : ∀ t ∈ q.instants, now ≤ t := fun t ht => Nat.le_trans hp.finish (hq t ht)
  intro t ht
  simp only [instants, Plan.andThen, List.map_append, List.mem_append, List.mem_singleton] at ht
  simp only [NotBefore, instants, List.mem_append, List.mem_singleton] at hp hle
  rcases ht with ((ht | ht) | (ht | ht)) | ht
  · exact hp t (.inl (.inl ht))
  · exact hle t (.inl (.inl ht))
  · exact hp t (.inl (.inr ht))
  · exact hle t (.inl (.inr ht))
  · exact hle t (.inr ht)

end Plan

/-- The plan of a work unit that starts at an instant. -/
def WorkUnit.plan (start : Millis) (u : WorkUnit) : Plan where
  creations := u.creations start
  finish := start + u.duration

/-- The plan of work units that are carried out from an instant on. -/
def workPlan (start : Millis) (units : List WorkUnit) : Plan where
  starts := timetable start units
  creations := (timetable start units).flatMap fun s => s.2.creations s.1
  finish := start + totalDuration units

lemma workPlan_cons (start : Millis) (u : WorkUnit) (us : List WorkUnit) :
    workPlan start (u :: us) = (Plan.opening start [u] 0).andThen
      ((u.plan start).andThen (workPlan (start + u.duration) us)) := by
  simp [workPlan, Plan.andThen, Plan.opening, WorkUnit.plan, timetable, totalDuration,
    Nat.add_assoc]

/-! ### Errands -/

/-- The plan of a spread change of which some single changes are left. -/
def Change.plan (now : Millis) (left : Nat) (step : Millis) : Change → Plan
  | .create _ =>
    { creations := (List.range left).map fun k => now + k * min step longestSleep
      finish := now + left * min step longestSleep }
  | .remove _ => { finish := now + left * min step longestSleep }

/-- The plan of an errand that is performed at an instant, without any stop. -/
def Errand.plan (now : Millis) : Errand → Plan
  | .create amount _ => .opening now [] amount
  | .count amount _ => .opening now [] amount
  | .spread change amount span => change.plan now amount (paceOf amount span)
  | .paced change left step => change.plan now left step
  | .pause change left step => change.plan (wakeTime now step) left step
  | .resume change left step wakeAt => if wakeAt ≤ now then change.plan now left step else .rest now
  | .delay duration => .rest (wakeTime now duration)
  | .pass duration => .rest (wakeTime now duration)
  | .scenario work => workPlan now work
  | .units left _ => workPlan now left
  | _ => .rest now

/-- The plan of errands that are performed one after another. -/
def agendaPlan (now : Millis) : List Errand → Plan
  | [] => .rest now
  | e :: es => (e.plan now).andThen (agendaPlan (e.plan now).finish es)

lemma agendaPlan_append (now : Millis) (es fs : List Errand) :
    agendaPlan now (es ++ fs) =
      (agendaPlan now es).andThen (agendaPlan (agendaPlan now es).finish fs) := by
  induction es generalizing now with
  | nil => simp [agendaPlan]; rfl
  | cons e es ih =>
    rw [List.cons_append, agendaPlan, ih, agendaPlan, Plan.andThen_assoc]
    rfl

@[simp] lemma agendaPlan_singleton (now : Millis) (e : Errand) :
    agendaPlan now [e] = e.plan now := (e.plan now).andThen_rest

lemma agendaPlan_pair (now : Millis) (e f : Errand) :
    agendaPlan now [e, f] = (e.plan now).andThen (f.plan (e.plan now).finish) := by
  rw [agendaPlan, agendaPlan_singleton]

lemma Change.plan_zero (now : Millis) (step : Millis) (c : Change) :
    c.plan now 0 step = .rest now := by
  cases c <;> simp [plan, Plan.rest]

/-- Each single change is followed by its pause. -/
lemma Change.plan_succ (now : Millis) (left : Nat) (step : Millis) (c : Change) :
    c.plan now (left + 1) step =
      (c.errand.plan now).andThen (c.plan (wakeTime now step) left step) := by
  have hfinish : now + (left + 1) * min step longestSleep =
      now + min step longestSleep + left * min step longestSleep := by
    rw [Nat.succ_mul, Nat.add_comm (left * _), Nat.add_assoc]
  cases c with
  | remove mode =>
    simp only [plan, errand, Errand.plan, Plan.rest_andThen, wakeTime, hfinish]
  | create lifecycle =>
    simp only [plan, errand, Errand.plan, Plan.andThen, wakeTime, hfinish, Plan.mk.injEq, and_true,
      List.range_succ_eq_map, List.map_cons, List.map_map]
    refine ⟨rfl, ?_⟩
    show _ :: _ = now :: _
    rw [Nat.zero_mul, Nat.add_zero]
    refine congrArg _ (List.map_congr_left fun k _ => ?_)
    simp only [Function.comp_apply, Nat.succ_mul]
    rw [Nat.add_comm (k * _), Nat.add_assoc]

lemma WorkUnit.plan_errand (start : Millis) {u : WorkUnit} (hu : u.KeepsTime) :
    u.errand.plan start = u.plan start := by
  have hpace : ∀ amount span, min (paceOf amount span) longestSleep = paceOf amount span :=
    fun amount span => Nat.min_eq_left (Nat.min_le_right _ _)
  cases u with
  | create amount lifecycle span =>
    cases span <;>
      simp [errand, Errand.plan, Change.plan, Plan.opening, plan, creations, duration, hpace]
  | remove amount mode span =>
    cases span <;>
      simp [errand, Errand.plan, Change.plan, plan, creations, duration, hpace, Plan.rest]
  | delay d => simp [errand, Errand.plan, plan, creations, duration, wakeTime, Plan.rest]
  | waitForAll => exact absurd hu id

/-! ### Nothing before its time -/

lemma Plan.notBefore_of_creations {now : Millis} {p : Plan} (hstarts : p.starts = [])
    (hcreations : ∀ t ∈ p.creations, now ≤ t) (hfinish : now ≤ p.finish) : p.NotBefore now := by
  intro t ht
  rw [instants, hstarts, List.map_nil, List.nil_append, List.mem_append, List.mem_singleton] at ht
  rcases ht with ht | rfl
  · exact hcreations t ht
  · exact hfinish

lemma Plan.notBefore_rest {now t : Millis} (h : now ≤ t) : (rest t).NotBefore now :=
  notBefore_of_creations rfl (by simp [rest]) h

lemma Change.notBefore_plan (now : Millis) (left : Nat) (step : Millis) (c : Change) :
    (c.plan now left step).NotBefore now := by
  cases c with
  | create lifecycle =>
    refine Plan.notBefore_of_creations rfl (fun t ht => ?_) (Nat.le_add_right ..)
    obtain ⟨k, -, rfl⟩ := List.mem_map.1 ht
    exact Nat.le_add_right ..
  | remove mode => exact Plan.notBefore_rest (Nat.le_add_right ..)

lemma WorkUnit.notBefore_plan (start : Millis) (u : WorkUnit) : (u.plan start).NotBefore start := by
  refine Plan.notBefore_of_creations rfl (fun t ht => ?_) (Nat.le_add_right ..)
  cases u with
  | create amount lifecycle span =>
    cases span with
    | none => exact Nat.le_of_eq (List.eq_of_mem_replicate ht).symm
    | some span =>
      obtain ⟨k, -, rfl⟩ := List.mem_map.1 ht
      exact Nat.le_add_right ..
  | _ => exact absurd ht List.not_mem_nil

lemma notBefore_workPlan (start : Millis) (units : List WorkUnit) :
    (workPlan start units).NotBefore start := by
  induction units generalizing start with
  | nil => simp [workPlan, timetable, Plan.NotBefore, Plan.instants]
  | cons u us ih =>
    rw [workPlan_cons]
    refine Plan.NotBefore.andThen ?_ ((u.notBefore_plan start).andThen (ih _))
    simp [Plan.NotBefore, Plan.instants, Plan.opening]

lemma Errand.notBefore_plan (now : Millis) (e : Errand) : (e.plan now).NotBefore now := by
  have hcreations : ∀ amount, (Plan.opening now [] amount).NotBefore now := fun amount =>
    Plan.notBefore_of_creations rfl (fun _ ht => Nat.le_of_eq (List.eq_of_mem_replicate ht).symm)
      (Nat.le_refl _)
  cases e with
  | create amount lifecycle => exact hcreations amount
  | count amount mode => exact hcreations amount
  | spread change amount span => exact change.notBefore_plan now amount _
  | paced change left step => exact change.notBefore_plan now left step
  | pause change left step =>
    exact fun t ht => Nat.le_trans (le_wakeTime now step) (change.notBefore_plan _ left step t ht)
  | resume change left step wakeAt =>
    rw [plan]
    split_ifs
    · exact change.notBefore_plan now left step
    · exact Plan.notBefore_rest (Nat.le_refl _)
  | delay duration => exact Plan.notBefore_rest (le_wakeTime ..)
  | pass duration => exact Plan.notBefore_rest (le_wakeTime ..)
  | scenario work => exact notBefore_workPlan now work
  | units left since => exact notBefore_workPlan now left
  | _ => exact Plan.notBefore_rest (Nat.le_refl _)

lemma notBefore_agendaPlan (now : Millis) (es : List Errand) :
    (agendaPlan now es).NotBefore now := by
  induction es generalizing now with
  | nil => exact Plan.notBefore_rest (Nat.le_refl _)
  | cons e es ih => exact (e.notBefore_plan now).andThen (ih _)

/-! ### Performing errands -/

/-- The errands that a scenario without waiting comes to. -/
def Errand.KeepsTime : Errand → Prop
  | .spread _ amount _ => 0 < amount
  | .scenario work => ∀ u ∈ work, u.KeepsTime
  | .units left _ => ∀ u ∈ left, u.KeepsTime
  | .waitForAll | .abort | .raise | .pass _ => False
  | _ => True

/-- The work unit that an errand begins with, if it does. -/
def Errand.begins (r : Run) : Errand → List WorkUnit
  | .units (unit :: _) _ => if r.isRaised then [] else [unit]
  | _ => []

/-- The number of users that an errand counts. -/
def Errand.counted : Errand → Nat
  | .count amount _ => amount
  | _ => 0

/-- Is the errand one of those that a work unit is about? -/
def Errand.isInner : Errand → Bool
  | .scenario _ | .units _ _ | .conclude _ | .waitForAll | .abort | .raise | .pass _ => false
  | _ => true

/-- The instant up to which an operation is on hold. -/
def Hold.until (now : Millis) : Hold → Millis
  | .pause wakeAt => wakeAt
  | .clock wakeAt => wakeAt
  | _ => now

/-- The hold is a pause that is not over yet, or does not take any time. -/
def Hold.KeepsTime (now : Millis) : Hold → Prop
  | .pause wakeAt => now ≤ wakeAt
  | .clock _ | .empty => False
  | _ => True

lemma Hold.KeepsTime.le_until {now : Millis} {h : Hold} (hkeeps : h.KeepsTime now) :
    now ≤ h.until now := by
  cases h with
  | pause wakeAt => exact hkeeps
  | clock wakeAt => exact absurd hkeeps not_false
  | _ => exact Nat.le_refl _

lemma WorkUnit.keepsTime_errand {u : WorkUnit} (hu : u.KeepsTime) :
    u.errand.KeepsTime ∧ u.errand.isInner = true := by
  cases u with
  | create amount lifecycle span => cases span <;> exact ⟨hu, rfl⟩
  | remove amount mode span => cases span <;> exact ⟨hu, rfl⟩
  | delay duration => exact ⟨hu, rfl⟩
  | waitForAll => exact absurd hu id

namespace Errand

variable {now : Millis} {r : Run} {e : Errand}

/-- An errand carries out the beginning of its plan, and leaves the rest of it. -/
theorem plan_eq_andThen (he : e.KeepsTime) (hraised : r.isRaised = false) :
    e.plan now = (Plan.opening now (e.begins r) e.counted).andThen
      (agendaPlan ((e.perform now r).hold.until now) (e.perform now r).next) := by
  cases e with
  | create amount lifecycle =>
    rw [perform, if_neg (by simp [hraised])]
    simp [plan, begins, counted, Hold.until]
  | count amount mode => simp [plan, perform, begins, counted, Hold.until, agendaPlan, Plan.andThen,
      Plan.opening, Plan.rest]
  | remove amount mode =>
    rw [perform, if_neg (by simp [hraised])]
    simp [plan, begins, counted, Hold.until, agendaPlan]
  | spread change amount span =>
    have hstep : stepDelay amount (.ofMillis span) = .ok (min (span / amount) maxMillis) := by
      rw [stepDelay, if_neg (Nat.pos_iff_ne_zero.1 he), Duration.millis_ofMillis]
    have hpace : change.plan now amount (paceOf amount span) =
        change.plan now amount (min (span / amount) maxMillis) := by
      have hmin : min (paceOf amount span) longestSleep =
          min (min (span / amount) maxMillis) longestSleep := by
        rw [paceOf, Nat.min_assoc, Nat.min_assoc, Nat.min_self,
          Nat.min_eq_right (show longestSleep ≤ maxMillis by decide)]
      cases change <;> simp only [Change.plan, hmin]
    simpa [perform, hstep, plan, begins, counted, Hold.until] using hpace
  | paced change left step =>
    cases left with
    | zero => simp [plan, perform, begins, counted, Hold.until, agendaPlan, change.plan_zero]
    | succ left =>
      rw [perform, if_neg (by simp [hraised])]
      simp only [plan, begins, counted, Hold.until, agendaPlan_pair, Plan.opening_andThen]
      rw [change.plan_succ]
      cases change <;> rfl
  | resume change left step wakeAt =>
    simp only [perform, begins, counted, Hold.until, Plan.opening_andThen]
    rw [plan]
    split_ifs <;> simp [plan, agendaPlan]
  | units left since =>
    cases left with
    | nil => simp [plan, perform, begins, counted, Hold.until, workPlan, timetable, totalDuration,
        Plan.rest]
    | cons unit left =>
      rw [perform, if_neg (by simp [hraised]), begins, if_neg (by simp [hraised])]
      simp only [counted, Hold.until, agendaPlan_pair]
      rw [WorkUnit.plan_errand now (he unit (List.mem_cons_self ..))]
      exact workPlan_cons now unit left
  | waitForAll => exact absurd he id
  | abort => exact absurd he id
  | raise => exact absurd he id
  | pass duration => exact absurd he id
  | _ => simp [plan, perform, begins, counted, Hold.until, agendaPlan]

/-- What errands have in common that keep their time. -/
structure Timely (now : Millis) (r : Run) (e : Errand) (result : Result) : Prop where
  isRaised : result.run.isRaised = r.isRaised
  created : result.run.created = r.created + e.counted
  keeps : ∀ e' ∈ result.next, e'.KeepsTime
  hold : result.hold.KeepsTime now
  /-- Nobody is created any more. -/
  counted : r.isRaised = true → ∀ e' ∈ result.next, e'.counted = 0
  inner : e.isInner = true → result.outcome = none ∧ ∀ e' ∈ result.next, e'.isInner = true

theorem timely (now : Millis) (r : Run) (he : e.KeepsTime) : Timely now r e (e.perform now r) := by
  -- Only a creation and a removal do anything to the run.
  have hidle : ∀ result : Result, result.run = r → e.counted = 0 →
      (∀ e' ∈ result.next, e'.KeepsTime) → result.hold.KeepsTime now →
      (∀ e' ∈ result.next, e'.counted = 0) →
      (e.isInner = true → result.outcome = none ∧ ∀ e' ∈ result.next, e'.isInner = true) →
      Timely now r e result := by
    intro result hrun hcount hkeeps hhold hcounted hinner
    exact ⟨by rw [hrun], by rw [hrun, hcount]; rfl, hkeeps, hhold, fun _ => hcounted, hinner⟩
  cases e with
  | create amount lifecycle =>
    rw [perform]
    split_ifs with hraised
    · exact hidle _ rfl rfl (by simp) trivial (by simp) (by simp)
    · exact ⟨rfl, rfl, by simp [KeepsTime], trivial, fun h => absurd h hraised, by simp [isInner]⟩
  | count amount mode =>
    exact ⟨rfl, rfl, by simp [perform], trivial, by simp [perform], by simp [perform]⟩
  | remove amount mode =>
    rw [perform]
    split_ifs
    · exact hidle _ rfl rfl (by simp) trivial (by simp) (by simp)
    · exact ⟨rfl, rfl, by simp, trivial, by simp, by simp⟩
  | spread change amount span =>
    rw [perform, stepDelay, if_neg (Nat.pos_iff_ne_zero.1 he)]
    exact hidle _ rfl rfl (by simp [KeepsTime]) trivial (by simp [Errand.counted])
      (by simp [isInner])
  | paced change left step =>
    cases left with
    | zero =>
      exact hidle _ rfl rfl (by simp [perform]) trivial (by simp [perform]) (by simp [perform])
    | succ left =>
      rw [perform]
      split_ifs
      · exact hidle _ rfl rfl (by simp) trivial (by simp) (by simp)
      · cases change <;>
          exact hidle _ rfl rfl (by simp [Change.errand, KeepsTime]) trivial
            (by simp [Change.errand, Errand.counted]) (by simp [Change.errand, isInner])
  | pause change left step =>
    exact hidle _ rfl rfl (by simp [perform, KeepsTime]) (le_wakeTime now step)
      (by simp [perform, Errand.counted]) (by simp [perform, isInner])
  | resume change left step wakeAt =>
    rw [perform]
    refine hidle _ rfl rfl ?_ trivial ?_ ?_ <;>
      · simp only
        split_ifs <;> simp [KeepsTime, Errand.counted, isInner]
  | delay duration =>
    exact hidle _ rfl rfl (by simp [perform]) (le_wakeTime now duration) (by simp [perform])
      (by simp [perform])
  | scenario work =>
    exact hidle _ rfl rfl (by simpa [perform, KeepsTime] using he) trivial
      (by simp [perform, Errand.counted]) (by simp [isInner])
  | units left since =>
    cases left with
    | nil =>
      exact hidle _ rfl rfl (by simp [perform, KeepsTime]) trivial
        (by simp [perform, Errand.counted]) (by simp [isInner])
    | cons unit left =>
      obtain ⟨hunit, hleft⟩ := List.forall_mem_cons.1 he
      rw [perform]
      split_ifs
      · exact hidle _ rfl rfl (by simp [KeepsTime]) trivial (by simp [Errand.counted])
          (by simp [isInner])
      · refine hidle _ rfl rfl ?_ trivial ?_ (by simp [isInner])
        · simpa using ⟨(WorkUnit.keepsTime_errand hunit).1, hleft⟩
        · have hcounted : unit.errand.counted = 0 := by
            cases unit with
            | create amount lifecycle span => cases span <;> rfl
            | remove amount mode span => cases span <;> rfl
            | _ => rfl
          simpa using ⟨hcounted, rfl⟩
  | conclude since =>
    exact hidle _ rfl rfl (by simp [perform]) trivial (by simp [perform]) (by simp [isInner])
  | waitForAll => exact absurd he id
  | abort => exact absurd he id
  | raise => exact absurd he id
  | pass duration => exact absurd he id

end Errand

end LoadTest
