import LoadTest.Proofs.Life
import Mathlib.Tactic.Common

/-!
# Users follow the rules of a life

From each phase of a user some events may still come, and in the end some fate. A step that does not
cut the life short adds its events in front of those ahead of the user after it. By induction on the
steps, what has happened to a user is the beginning of a life.
-/

namespace LoadTest

variable {σ : Type}

/-! ### What lies ahead -/

/-- How many cycles a user may still begin, if that is bounded. -/
def cyclesLeft (l : Lifecycle) (completed : UInt32) : Option Nat :=
  l.limit?.map fun limit => limit.toNat - completed.toNat

/-- What lies ahead of a user that is to look whether it may begin a cycle. -/
def AheadOfCheck (t : Template σ) (l : Lifecycle) (completed : UInt32) (events : List (LifeEvent σ))
    (fate : Fate) : Prop :=
  l ≠ .regular ∧ ∃ cycles failure second, Cycles t (cyclesLeft l completed) cycles failure ∧
    events = cycles ++ tearingDown second ∧ fate = .over failure second

/-- What lies ahead of a user whose cycle is over. -/
def AheadAfterCycle (t : Template σ) (l : Lifecycle) (completed : UInt32) (failure : Option String)
    (events : List (LifeEvent σ)) (fate : Fate) : Prop :=
  if failure.isNone ∧ l ≠ .regular then AheadOfCheck t l (completed + 1) events fate
  else ∃ second, events = tearingDown second ∧ fate = .over failure second

/-- What lies ahead of a user in a phase. -/
def Phase.Ahead (t : Template σ) (l : Lifecycle) (events : List (LifeEvent σ)) (fate : Fate) :
    Phase σ → Prop
  | .launched => Life t l events fate
  | .arrived => Life t l events fate
  | .calling .setUp _ => Life t l (.calls .setUp :: events) fate
  | .calling (.cycle completed call left pause) _ =>
    ∃ cycle failure rest, CycleRun (call :: left) pause (.calls (.inCycle call) :: cycle) failure ∧
      events = cycle ++ rest ∧ AheadAfterCycle t l completed failure rest fate
  | .calling (.tearDown first) _ =>
    ∃ second, events = [.returns .tearDown second] ∧ fate = .over first second
  | .pausing _ completed _ => AheadAfterCycle t l completed none events fate
  | .yielding _ completed => AheadOfCheck t l completed events fate
  | .deciding _ completed => AheadOfCheck t l completed events fate
  | .ended => False

/-- Only users that go on by themselves look whether they may. -/
def Phase.Fits (l : Lifecycle) : Phase σ → Prop
  | .yielding _ _ => l ≠ .regular
  | .deciding _ _ => l ≠ .regular
  | _ => True

/-- A cycle may always succeed. -/
lemma CycleRun.exists_succeeding (calls : List (Call σ)) (pause : Millis) :
    ∃ events, CycleRun calls pause events none := by
  induction calls with
  | nil =>
    by_cases hpause : pause = 0
    · subst hpause
      exact ⟨_, .ends⟩
    · exact ⟨_, @CycleRun.pauses σ pause 0 hpause⟩
  | cons call calls ih =>
    obtain ⟨events, h⟩ := ih
    exact ⟨_, .succeeds h⟩

lemma exists_aheadOfCheck (t : Template σ) {l : Lifecycle} (hl : l ≠ .regular)
    (completed : UInt32) : ∃ events fate, AheadOfCheck t l completed events fate :=
  ⟨_, _, hl, [.checks false true], none, none, .stops (.inl rfl), rfl, rfl⟩

lemma exists_aheadAfterCycle (t : Template σ) (l : Lifecycle) (completed : UInt32)
    (failure : Option String) :
    ∃ events fate, AheadAfterCycle t l completed failure events fate := by
  unfold AheadAfterCycle
  split_ifs with h
  · exact exists_aheadOfCheck t h.2 _
  · exact ⟨_, _, none, rfl, rfl⟩

/-- Something lies ahead of every user that has not ended. -/
lemma Phase.Fits.exists_ahead {t : Template σ} {l : Lifecycle} {p : Phase σ} (hfits : p.Fits l)
    (hended : p ≠ .ended) : ∃ events fate, p.Ahead t l events fate := by
  cases p with
  | launched => exact ⟨_, _, @Life.notSetUp σ t l ""⟩
  | arrived => exact ⟨_, _, @Life.notSetUp σ t l ""⟩
  | calling stage a =>
    cases stage with
    | setUp => exact ⟨_, _, @Life.notSetUp σ t l ""⟩
    | cycle completed call left pause =>
      obtain ⟨cycle, hcycle⟩ := CycleRun.exists_succeeding left pause
      obtain ⟨rest, fate, hrest⟩ := exists_aheadAfterCycle t l completed none
      exact ⟨_, fate, _, none, rest, .succeeds hcycle, rfl, hrest⟩
    | tearDown first => exact ⟨_, _, none, rfl, rfl⟩
  | pausing state completed wakeAt => exact exists_aheadAfterCycle t l completed none
  | yielding state completed => exact exists_aheadOfCheck t hfits completed
  | deciding state completed => exact exists_aheadOfCheck t hfits completed
  | ended => exact absurd rfl hended

/-! ### Steps -/

/-- A cycle goes on after a callback, or else that has failed fatally. -/
lemma Call.goesOn_or_fatal (call : Call σ) (failure : Option String) :
    (failure = none ∨ ∃ what, call.onFailure = .logged what) ∨
      ∃ reason, failure = some reason ∧ call.onFailure = .fatal := by
  cases failure with
  | none => exact .inl (.inl rfl)
  | some reason =>
    cases hcall : call.onFailure with
    | fatal => exact .inr ⟨reason, rfl, rfl⟩
    | logged what => exact .inl (.inr ⟨what, rfl⟩)

/-- A callback returns without a deed. -/
lemma Activation.step_eq_returned {a : Activation σ} {now : Millis} {run : Option RunView}
    {state : σ} {failure : Option String} (h : (a.step now run).1 = .returned state failure) :
    a.wakeAt = none ∧ a.step now run = (.returned state failure, []) := by
  revert h
  rw [Activation.step]
  split_ifs with hwake
  · simp
  · split
    case h_8 => cases run <;> simp
    all_goals simp_all

/-- A sleeping callback wakes up. -/
lemma Activation.step_of_asleep {a : Activation σ} {now : Millis} {run : Option RunView}
    (h : a.wakeAt.isSome) : (a.step now run).1 = .going { a with wakeAt := none } := by
  rw [Activation.step, if_pos h]

namespace User

variable {u : User σ} {v : View} {stage : Stage σ} {a : Activation σ}

lemma step_of_launched (hphase : u.phase = .launched) :
    u.step v = ({ u with id := v.nextId, phase := .arrived }, [.register u.lifecycle.mode]) ∧
      u.events v = [] := by
  have hu : u.step v = ({ u with id := v.nextId, phase := .arrived },
      [.register u.lifecycle.mode]) := by
    simp [step, isSuspended, hphase]
  refine ⟨hu, ?_⟩
  simp [events, returning?, isDeciding, beginning, Phase.entered, hphase, hu]

lemma step_of_unmade {reason : String} (hphase : u.phase = .arrived)
    (hcreate : u.template.create v.nextInstance = .error reason) :
    u.step v = (u.enter .ended, (Fate.unmade reason).effects u.template) ∧ u.events v = [] := by
  have hu : u.step v = (u.enter .ended, (Fate.unmade reason).effects u.template) := by
    simp [step, isSuspended, hphase, hcreate, Fate.effects]
  refine ⟨hu, ?_⟩
  simp [events, returning?, isDeciding, beginning, Phase.entered, hphase, hu, enter]

/-- A user whose instance is not made because of a panic ends without one. -/
lemma step_of_lost {reason : String} (hphase : u.phase = .arrived)
    (hcreate : u.template.create v.nextInstance = .panic reason) :
    u.step v =
        (u.enter .ended, [.construct, .log ⟨.error, "Virtual user panicked"⟩, .leave]) ∧
      u.events v = [] := by
  have hu : u.step v =
      (u.enter .ended, [.construct, .log ⟨.error, "Virtual user panicked"⟩, .leave]) := by
    simp [step, isSuspended, hphase, hcreate]
  refine ⟨hu, ?_⟩
  simp [events, returning?, isDeciding, beginning, Phase.entered, hphase, hu, enter]

lemma step_of_made {state : σ} (hphase : u.phase = .arrived)
    (hcreate : u.template.create v.nextInstance = .ok state) :
    u.step v =
        ({ u with
            instanceNumber := v.nextInstance
            phase := .calling .setUp (.begin (u.template.setUp state)) }, [.construct]) ∧
      u.events v = [.calls .setUp] := by
  have hu : u.step v =
      ({ u with
          instanceNumber := v.nextInstance
          phase := .calling .setUp (.begin (u.template.setUp state)) }, [.construct]) := by
    simp [step, isSuspended, hphase, hcreate]
  refine ⟨hu, ?_⟩
  simp [events, returning?, isCalling, isDeciding, beginning, Phase.entered, Stage.callback,
    hphase, hu]

lemma step_of_going (hphase : u.phase = .calling stage a) (hcut : u.isCutShort v = false)
    {a' : Activation σ} (h : (a.step v.now (some v.run)).1 = .going a') :
    (u.step v).1 = u.enter (.calling stage a') ∧ u.events v = [] := by
  obtain ⟨habort, -⟩ := Bool.or_eq_false_iff.1 hcut
  have hu : (u.step v).1 = u.enter (.calling stage a') := by
    rw [step, if_neg (by simp [habort])]
    cases hstep : a.step v.now (some v.run) with
    | mk standing deeds =>
      rw [hstep] at h
      subst h
      simp [hphase, hstep]
  refine ⟨hu, ?_⟩
  simp [events, returning?, isCalling, isDeciding, beginning, hphase, h]

lemma step_of_returned (hphase : u.phase = .calling stage a) {state : σ}
    {failure : Option String} (h : (a.step v.now (some v.run)).1 = .returned state failure) :
    u.step v = u.returned v.now stage state failure ∧
      u.events v = .returns stage.callback failure ::
        (u.returned v.now stage state failure).1.phase.entered v.now := by
  obtain ⟨hwake, hstep⟩ := Activation.step_eq_returned h
  have hu : u.step v = u.returned v.now stage state failure := by
    simp [step, isSuspended, hphase, hwake, hstep]
  simp [events, returning?, isDeciding, beginning, hphase, hstep, hu]

lemma step_of_pausing {state : σ} {completed : UInt32} {wakeAt : Millis}
    (hphase : u.phase = .pausing state completed wakeAt) (hcut : u.isCutShort v = false) :
    u.step v = (u.endCycle state completed, []) ∧
      u.events v = (u.endCycle state completed).phase.entered v.now := by
  obtain ⟨habort, -⟩ := Bool.or_eq_false_iff.1 hcut
  have hu : u.step v = (u.endCycle state completed, []) := by
    rw [step, if_neg (by simp [habort])]
    simp [hphase]
  refine ⟨hu, ?_⟩
  simp [events, returning?, isCalling, isDeciding, beginning, hphase, hu]

lemma step_of_yielding {state : σ} {completed : UInt32}
    (hphase : u.phase = .yielding state completed) (hcut : u.isCutShort v = false) :
    u.step v = (u.enter (.deciding state completed), []) ∧ u.events v = [] := by
  obtain ⟨habort, -⟩ := Bool.or_eq_false_iff.1 hcut
  have hu : u.step v = (u.enter (.deciding state completed), []) := by
    rw [step, if_neg (by simp [habort])]
    simp [hphase]
  refine ⟨hu, ?_⟩
  simp [events, returning?, isDeciding, beginning, Phase.entered, hphase, hu, enter]

lemma step_of_deciding {state : σ} {completed : UInt32}
    (hphase : u.phase = .deciding state completed) :
    u.step v = u.decide v state completed ∧
      u.events v = .checks v.active v.run.raised ::
        (u.decide v state completed).1.phase.entered v.now := by
  have hu : u.step v = u.decide v state completed := by
    rw [step, if_neg (by simp [isSuspended, hphase])]
    simp [hphase]
  refine ⟨hu, ?_⟩
  simp [events, returning?, isCalling, isDeciding, beginning, hphase, hu]

/-- A life that is cut short is over, and nothing happens to the session any more. -/
lemma step_of_isCutShort (h : u.isCutShort v) :
    (u.step v).1.phase = .ended ∧ u.events v = [] := by
  by_cases habort : v.aborted && u.isSuspended
  · have hu : u.step v = u.abandon := by rw [step, if_pos habort]
    have hsuspended : u.isSuspended := (Bool.and_eq_true _ _ ▸ habort).2
    refine ⟨by rw [hu]; rfl, ?_⟩
    cases hphase : u.phase with
    | calling stage a =>
      have hwake : a.wakeAt.isSome := by simpa [isSuspended, hphase] using hsuspended
      simp [events, returning?, isCalling, isDeciding, beginning, hphase, hwake,
        Activation.step_of_asleep]
    | pausing state completed wakeAt =>
      simp [events, returning?, isCalling, isDeciding, beginning, hphase, hu, abandon, enter,
        Phase.entered]
    | yielding state completed =>
      simp [events, returning?, isCalling, isDeciding, beginning, hphase, hu, abandon, enter,
        Phase.entered]
    | _ => simp [isSuspended, hphase] at hsuspended
  · have hpanics : u.panics v := by simpa [isCutShort, habort] using h
    cases hphase : u.phase with
    | arrived =>
      cases hcreate : u.template.create v.nextInstance with
      | panic reason =>
        obtain ⟨hu, hevents⟩ := step_of_lost hphase hcreate
        exact ⟨by rw [hu]; rfl, hevents⟩
      | _ => simp [panics, hphase, hcreate] at hpanics
    | calling stage a =>
      cases hstep : a.step v.now (some v.run) with
      | mk standing deeds =>
        cases standing with
        | panicked =>
          have hu : (u.step v).1 = u.enter .ended := by
            rw [step, if_neg habort]
            simp [hphase, hstep]
          simp [events, returning?, isCalling, isDeciding, beginning, hphase, hstep, hu, enter]
        | _ => simp [panics, hphase, hstep] at hpanics
    | _ => simp [panics, hphase] at hpanics

lemma phase_of_isEnded (h : u.isEnded = true) : u.phase = .ended := by
  revert h
  rw [isEnded]
  split <;> simp_all

lemma step_of_ended (hphase : u.phase = .ended) : (u.step v).1 = u ∧ u.events v = [] := by
  have hu : (u.step v).1 = u := by simp [step, isSuspended, hphase]
  refine ⟨hu, ?_⟩
  simp [events, returning?, isDeciding, beginning, Phase.entered, hphase, hu]

end User

/-- A step with some events leads from a phase to what is next: the events come in front of those
ahead after the step, and the last step has the effects of the fate. -/
def Leads (t : Template σ) (l : Lifecycle) (p : Phase σ) (events : List (LifeEvent σ))
    (next : User σ × List Effect) : Prop :=
  (∀ rest fate, next.1.phase.Ahead t l rest fate → p.Ahead t l (events ++ rest) fate) ∧
    (next.1.phase = .ended → ∃ fate, p.Ahead t l events fate ∧ next.2 = fate.effects t)

namespace User

variable {u : User σ} {v : View}

@[simp] lemma phase_enter (p : Phase σ) : (u.enter p).phase = p := rfl

lemma phase_beginCycle (state : σ) (completed : UInt32) :
    ∃ word, (u.beginCycle state completed).phase =
      .calling (.cycle completed u.template.firstCall
        (u.template.laterCalls (u.template.select word)) (u.template.select word).delayAfter)
        (.begin (u.template.firstCall.run state)) :=
  ⟨_, rfl⟩

/-- A regular user tears down after its cycle. -/
lemma endCycle_of_regular {state : σ} {completed : UInt32} (hl : u.lifecycle = .regular) :
    u.endCycle state completed = u.tearDown state none := by
  simp [endCycle, hl]

/-- Users that go on by themselves count a cycle that is over. -/
lemma endCycle_of_ne_regular {state : σ} {completed : UInt32} (hl : u.lifecycle ≠ .regular) :
    u.endCycle state completed = u.enter (.yielding state (completed + 1)) := by
  cases hlifecycle : u.lifecycle with
  | regular => exact absurd hlifecycle hl
  | _ => simp [endCycle, hlifecycle]

/-- A regular user begins its cycle after the set-up. -/
lemma returned_setUp_of_regular {now : Millis} {state : σ} (hl : u.lifecycle = .regular) :
    u.returned now .setUp state none = (u.beginCycle state 0, []) := by
  simp [returned, hl]

/-- Users that go on by themselves look whether they may after the set-up. -/
lemma returned_setUp_of_ne_regular {now : Millis} {state : σ} (hl : u.lifecycle ≠ .regular) :
    u.returned now .setUp state none = (u.enter (.deciding state 0), []) := by
  cases hlifecycle : u.lifecycle with
  | regular => exact absurd hlifecycle hl
  | _ => simp [returned, hlifecycle]

/-- What lies ahead of a user that begins a cycle is the rest of the cycle, and what comes after it.
-/
lemma ahead_beginCycle {state : σ} {completed : UInt32} {l : Lifecycle}
    {events : List (LifeEvent σ)} {fate : Fate}
    (h : (u.beginCycle state completed).phase.Ahead u.template l events fate) :
    ∃ cycle failure rest, u.template.Cycle cycle failure ∧
      .calls (.inCycle u.template.firstCall) :: events = cycle ++ rest ∧
        AheadAfterCycle u.template l completed failure rest fate := by
  obtain ⟨word, hphase⟩ := u.phase_beginCycle state completed
  rw [hphase] at h
  obtain ⟨cycle, failure, rest, hcycle, rfl, hrest⟩ := h
  exact ⟨_, failure, rest, ⟨word, hcycle⟩, rfl, hrest⟩

lemma aheadAfterCycle_regular {t : Template σ} {completed : UInt32} {failure : Option String}
    {events : List (LifeEvent σ)} {fate : Fate}
    (h : AheadAfterCycle t .regular completed failure events fate) :
    ∃ second, events = tearingDown second ∧ fate = .over failure second := by
  simpa [AheadAfterCycle] using h

/-- After the set-up. -/
lemma leads_of_setUp {now : Millis} {a : Activation σ} {state : σ} {failure : Option String} :
    Leads u.template u.lifecycle (.calling .setUp a)
      (.returns .setUp failure :: (u.returned now .setUp state failure).1.phase.entered now)
      (u.returned now .setUp state failure) := by
  cases failure with
  | some reason => exact ⟨fun _ _ h => h.elim, fun _ => ⟨.notSetUp reason, .notSetUp, rfl⟩⟩
  | none =>
    by_cases hl : u.lifecycle = .regular
    · rw [returned_setUp_of_regular hl, hl]
      refine ⟨fun rest fate h => ?_, fun h => nomatch h⟩
      obtain ⟨cycle, failure, after, hcycle, heq, hafter⟩ := ahead_beginCycle h
      obtain ⟨second, rfl, rfl⟩ := aheadAfterCycle_regular hafter
      show Life _ _ (.calls .setUp :: .returns .setUp none :: .calls (.inCycle _) :: rest) _
      rw [heq]
      exact .regular hcycle
    · rw [returned_setUp_of_ne_regular hl]
      refine ⟨fun rest fate h => ?_, fun h => nomatch h⟩
      obtain ⟨-, cycles, failure, second, hcycles, rfl, rfl⟩ := h
      exact .goesOn hl hcycles

/-- After the tear-down. -/
lemma leads_of_tearDown {now : Millis} {a : Activation σ} {state : σ}
    {first second : Option String} :
    Leads u.template u.lifecycle (.calling (.tearDown first) a)
      (.returns .tearDown second ::
        (u.returned now (.tearDown first) state second).1.phase.entered now)
      (u.returned now (.tearDown first) state second) := by
  have hphase : (u.returned now (.tearDown first) state second).1.phase = .ended := by
    cases first <;> cases second <;> rfl
  refine ⟨fun _ _ h => ?_, fun _ => ⟨.over first second, ⟨second, ?_, rfl⟩, ?_⟩⟩
  · rw [hphase] at h
    exact h.elim
  · rw [hphase]
    rfl
  · cases first <;> cases second <;> rfl

lemma ahead_tearDown {now : Millis} {state : σ} {failure : Option String} {l : Lifecycle}
    {events : List (LifeEvent σ)} {fate : Fate}
    (h : (u.tearDown state failure).phase.Ahead u.template l events fate) :
    ∃ second, (u.tearDown state failure).phase.entered now ++ events = tearingDown second ∧
      fate = .over failure second := by
  obtain ⟨second, rfl, rfl⟩ := h
  exact ⟨second, rfl, rfl⟩

/-- After a cycle that has succeeded. -/
lemma leads_of_endCycle {now : Millis} {state : σ} {completed : UInt32} {effects : List Effect}
    {events : List (LifeEvent σ)} {p : Phase σ}
    (h : ∀ rest fate, AheadAfterCycle u.template u.lifecycle completed none rest fate →
      p.Ahead u.template u.lifecycle (events ++ rest) fate) :
    Leads u.template u.lifecycle p
      (events ++ (u.endCycle state completed).phase.entered now)
      (u.endCycle state completed, effects) := by
  by_cases hl : u.lifecycle = .regular
  · rw [endCycle_of_regular hl]
    refine ⟨fun rest fate hrest => ?_, fun h => nomatch h⟩
    obtain ⟨second, heq, rfl⟩ := @ahead_tearDown σ u now _ _ _ _ _ hrest
    rw [List.append_assoc, heq]
    refine h _ _ ?_
    rw [AheadAfterCycle, if_neg fun hnot => hnot.2 hl]
    exact ⟨second, rfl, rfl⟩
  · rw [endCycle_of_ne_regular hl]
    refine ⟨fun rest fate hrest => ?_, fun h => nomatch h⟩
    simp only [phase_enter, Phase.entered, List.append_nil]
    refine h _ _ ?_
    rw [AheadAfterCycle, if_pos ⟨rfl, hl⟩]
    exact hrest

/-- A callback of a cycle that has not failed fatally is followed by the next one, or else by the
end of the cycle. -/
lemma returned_cycle {now : Millis} {state : σ} {completed : UInt32} {call : Call σ}
    {left : List (Call σ)} {pause : Millis} {failure : Option String}
    (h : failure = none ∨ ∃ what, call.onFailure = .logged what) :
    ∃ report, u.returned now (.cycle completed call left pause) state failure =
      match left with
      | next :: left =>
        (u.enter (.calling (.cycle completed next left pause) (.begin (next.run state))), report)
      | [] =>
        if pause = 0 then (u.endCycle state completed, report)
        else (u.enter (.pausing state completed (wakeTime now pause)), report) := by
  rcases h with rfl | ⟨what, hlogged⟩
  · cases hcall : call.onFailure with
    | fatal => exact ⟨[], by cases left <;> simp [returned, hcall]⟩
    | logged what => exact ⟨[], by cases left <;> simp [returned, hcall]⟩
  · cases failure with
    | none => exact ⟨[], by cases left <;> simp [returned, hlogged]⟩
    | some reason =>
      exact ⟨[.log ⟨.error, s!"{what}: {reason}"⟩], by cases left <;> simp [returned, hlogged]⟩

lemma returned_of_fatal {now : Millis} {state : σ} {completed : UInt32} {call : Call σ}
    {left : List (Call σ)} {pause : Millis} {reason : String} (hfatal : call.onFailure = .fatal) :
    u.returned now (.cycle completed call left pause) state (some reason) =
      (u.tearDown state (some reason), []) := by
  simp [returned, hfatal]

/-- A callback of a cycle that has failed fatally is followed by the tear-down. -/
lemma leads_of_fatal {now : Millis} {a : Activation σ} {state : σ} {completed : UInt32}
    {call : Call σ} {left : List (Call σ)} {pause : Millis} {reason : String}
    (hfatal : call.onFailure = .fatal) :
    Leads u.template u.lifecycle (.calling (.cycle completed call left pause) a)
      (.returns (.inCycle call) (some reason) ::
        (u.returned now (.cycle completed call left pause) state (some reason)).1.phase.entered now)
      (u.returned now (.cycle completed call left pause) state (some reason)) := by
  rw [returned_of_fatal hfatal]
  refine ⟨fun rest fate hrest => ?_, fun h => nomatch h⟩
  obtain ⟨second, heq, rfl⟩ := @ahead_tearDown σ u now _ _ _ _ _ hrest
  refine ⟨[.returns (.inCycle call) (some reason)], some reason, tearingDown second, .fails hfatal,
    ?_, ?_⟩
  · rw [← heq]
    rfl
  · rw [AheadAfterCycle, if_neg (by simp)]
    exact ⟨second, rfl, rfl⟩

/-- After a callback of a cycle. -/
lemma leads_of_cycle {now : Millis} {a : Activation σ} {state : σ} {completed : UInt32}
    {call : Call σ} {left : List (Call σ)} {pause : Millis} {failure : Option String} :
    Leads u.template u.lifecycle (.calling (.cycle completed call left pause) a)
      (.returns (.inCycle call) failure ::
        (u.returned now (.cycle completed call left pause) state failure).1.phase.entered now)
      (u.returned now (.cycle completed call left pause) state failure) := by
  rcases call.goesOn_or_fatal failure with hgoes | ⟨reason, rfl, hfatal⟩
  · have hcycle : ∀ {events failure'}, CycleRun left pause events failure' →
        CycleRun (call :: left) pause
          (.calls (.inCycle call) :: .returns (.inCycle call) failure :: events) failure' := by
      intro events failure' h
      rcases hgoes with rfl | ⟨what, hlogged⟩
      · exact .succeeds h
      · cases failure with
        | none => exact .succeeds h
        | some reason => exact .goesOn hlogged h
    obtain ⟨report, hu⟩ := @returned_cycle σ u now state completed call left pause failure hgoes
    rw [hu]
    cases left with
    | cons next left =>
      refine ⟨fun rest fate h => ?_, fun h => nomatch h⟩
      obtain ⟨cycle, failure', after, hnext, rfl, hafter⟩ := h
      exact ⟨_, failure', after, hcycle hnext, rfl, hafter⟩
    | nil =>
      by_cases hpause : pause = 0
      · subst hpause
        simp only [if_true]
        exact @leads_of_endCycle σ u now state completed report
          [.returns (.inCycle call) failure] _ fun rest fate h =>
            ⟨_, none, rest, hcycle .ends, rfl, h⟩
      · simp only [hpause, if_false]
        refine ⟨fun rest fate h => ?_, fun h => nomatch h⟩
        exact ⟨_, none, rest, hcycle (.pauses hpause), rfl, h⟩
  · exact leads_of_fatal hfatal

lemma isDone_iff {completed : UInt32} :
    u.isDone completed = true ↔ cyclesLeft u.lifecycle completed = some 0 := by
  rw [isDone, cyclesLeft]
  cases u.lifecycle.limit? with
  | none => simp
  | some limit => simp [UInt32.le_iff_toNat_le, Nat.sub_eq_zero_iff_le]

/-- The count of cycles does not overflow before it reaches its bound. -/
lemma toNat_succ_of_lt {completed limit : UInt32} (h : completed < limit) :
    (completed + 1).toNat = completed.toNat + 1 := by
  have hlt := UInt32.lt_iff_toNat_lt.1 h
  have hlimit := limit.toNat_lt
  rw [UInt32.toNat_add]
  exact Nat.mod_eq_of_lt (by simpa using by omega)

lemma cyclesLeft_succ {completed : UInt32} (h : u.isDone completed = false) :
    cyclesLeft u.lifecycle (completed + 1) = (cyclesLeft u.lifecycle completed).map (· - 1) := by
  rw [isDone] at h
  unfold cyclesLeft
  cases hlimit : u.lifecycle.limit? with
  | none => rfl
  | some limit =>
    have hlt : completed < limit := by simpa [hlimit] using h
    simp only [Option.map_some, toNat_succ_of_lt hlt, Nat.sub_add_eq]

/-- After a check, by which a user begins a cycle exactly if nobody has asked it or its run to stop
and it may begin one more. -/
lemma leads_of_decide {v : View} {state : σ} {completed : UInt32} (hl : u.lifecycle ≠ .regular) :
    Leads u.template u.lifecycle (.deciding state completed)
      (.checks v.active v.run.raised :: (u.decide v state completed).1.phase.entered v.now)
      (u.decide v state completed) := by
  rw [decide]
  split_ifs with hgoes
  · obtain ⟨⟨hactive, hraised⟩, hdone⟩ : (v.active = true ∧ v.run.raised = false) ∧
        u.isDone completed = false := by simpa using hgoes
    have hleft : cyclesLeft u.lifecycle completed ≠ some 0 := by
      rw [Ne, ← isDone_iff, hdone]
      exact Bool.false_ne_true
    rw [hactive, hraised]
    refine ⟨fun rest fate h => ?_, fun h => nomatch h⟩
    obtain ⟨cycle, failure, after, hcycle, heq, hafter⟩ := ahead_beginCycle h
    show AheadOfCheck _ _ _ (.checks true false :: .calls (.inCycle _) :: rest) _
    rw [heq]
    cases failure with
    | some reason =>
      rw [AheadAfterCycle, if_neg (by simp)] at hafter
      obtain ⟨second, rfl, rfl⟩ := hafter
      exact ⟨hl, _, some reason, second, .fails hleft hcycle, rfl, rfl⟩
    | none =>
      rw [AheadAfterCycle, if_pos ⟨rfl, hl⟩] at hafter
      obtain ⟨-, cycles, failure, second, hcycles, rfl, rfl⟩ := hafter
      rw [cyclesLeft_succ hdone] at hcycles
      exact ⟨hl, _, failure, second, .goesOn hleft hcycle hcycles, by simp, rfl⟩
  · have hstop : v.active = false ∨ v.run.raised = true ∨
        cyclesLeft u.lifecycle completed = some 0 := by
      rw [← isDone_iff]
      cases hactive : v.active
      · exact .inl rfl
      · cases hraised : v.run.raised
        · exact .inr (.inr (by simpa [hactive, hraised] using hgoes))
        · exact .inr (.inl rfl)
    refine ⟨fun rest fate h => ?_, fun h => nomatch h⟩
    obtain ⟨second, heq, rfl⟩ := @ahead_tearDown σ u v.now _ _ _ _ _ h
    refine ⟨hl, _, none, second, .stops hstop, ?_, rfl⟩
    rw [← heq]
    rfl

/-- A step that does not cut a life short leads on. -/
theorem leads_step {v : View} (hcut : u.isCutShort v = false) (hended : u.phase ≠ .ended)
    (hfits : u.phase.Fits u.lifecycle) :
    Leads u.template u.lifecycle u.phase (u.events v) (u.step v) := by
  obtain ⟨-, hpanics⟩ := Bool.or_eq_false_iff.1 hcut
  cases hphase : u.phase with
  | launched =>
    obtain ⟨hu, hevents⟩ := step_of_launched hphase
    rw [hu, hevents]
    exact ⟨fun _ _ h => h, fun h => nomatch h⟩
  | arrived =>
    cases hcreate : u.template.create v.nextInstance with
    | error reason =>
      obtain ⟨hu, hevents⟩ := step_of_unmade hphase hcreate
      rw [hu, hevents]
      exact ⟨fun _ _ h => h.elim, fun _ => ⟨_, .unmade hcreate, rfl⟩⟩
    | ok state =>
      obtain ⟨hu, hevents⟩ := step_of_made hphase hcreate
      rw [hu, hevents]
      exact ⟨fun _ _ h => h, fun h => nomatch h⟩
    | panic reason => simp [panics, hphase, hcreate] at hpanics
  | calling stage a =>
    cases hstep : (a.step v.now (some v.run)).1 with
    | going a' =>
      obtain ⟨hu, hevents⟩ := step_of_going hphase hcut hstep
      rw [Leads, hu, hevents]
      refine ⟨fun rest fate h => ?_, fun h => nomatch h⟩
      cases stage <;> exact h
    | returned state failure =>
      obtain ⟨hu, hevents⟩ := step_of_returned hphase hstep
      rw [hu, hevents]
      cases stage with
      | setUp => exact leads_of_setUp
      | cycle completed call left pause => exact leads_of_cycle
      | tearDown first => exact leads_of_tearDown
    | panicked => simp [panics, hphase, hstep] at hpanics
  | pausing state completed wakeAt =>
    obtain ⟨hu, hevents⟩ := step_of_pausing hphase hcut
    rw [hu, hevents]
    exact @leads_of_endCycle σ u v.now state completed [] [] _ fun _ _ h => h
  | yielding state completed =>
    obtain ⟨hu, hevents⟩ := step_of_yielding hphase hcut
    rw [hu, hevents]
    exact ⟨fun _ _ h => h, fun h => nomatch h⟩
  | deciding state completed =>
    obtain ⟨hu, hevents⟩ := step_of_deciding hphase
    rw [hphase] at hfits
    rw [hu, hevents]
    exact leads_of_decide hfits
  | ended => exact absurd hphase hended

end User

end LoadTest
