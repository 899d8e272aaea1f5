import LoadTest.Proofs.Concluding
import LoadTest.Proofs.Refusal

/-!
# Waiting for statistics

Any number of calls may wait at a controller while runs are started, stopped and come to their end.
A call that finds a run whose statistics nobody has asked for waits for these, even if another run
takes the place of that one in the meantime; any other call is refused at once. So each run has one
call at most that waits for it, and what that call is given is what its run has come to.
-/

namespace LoadTest

variable {σ ν : Type}

/-- The run whose statistics are asked for, if nobody has asked for them before. -/
def unclaimed (found : Option HeldRun) : Option HeldRun := found.filter fun h => !h.claimed

/-- A call that waits for the statistics of a run. -/
structure WaitCall where
  /-- The held run, as the call finds it. -/
  found : Option HeldRun
  /-- What the call has given back. -/
  answer : Option (Except ControlError RunStatistics) := none

/-- The run that a call waits for. -/
def WaitCall.target? (q : WaitCall) : Option HeldRun := unclaimed q.found

lemma unclaimed_eq_some {found : Option HeldRun} {h : HeldRun} :
    unclaimed found = some h ↔ found = some h ∧ h.claimed = false := by
  simp [unclaimed, Option.filter_eq_some_iff]

lemma unclaimed_eq_none {found : Option HeldRun} :
    unclaimed found = none ↔ ∀ h, found = some h → h.claimed = true := by
  simp [unclaimed, Option.filter_eq_none_iff]

/-- What a call gives back when its run has come to an outcome. -/
def Outcome.answer? : Outcome → Option (Except ControlError RunStatistics)
  | .statistics s => some (.ok s)
  | .failed e => some (.error (.execution e))
  | _ => none

lemma Outcome.answer?_ne (o : Outcome) : o.answer? ≠ some (.error .noActiveRun) := by
  cases o <;> simp [answer?]

/-- A controller, and the calls that have been made to wait at it, in their order. -/
structure Attended (σ ν : Type) where
  controller : Controller σ ν
  calls : List WaitCall := []

lemma World.Later.length_runs {w v : World σ} (h : w.Later v) : v.runs.length = w.runs.length := by
  have hv := h w.runs.length
  have hw := h v.runs.length
  rw [World.run?_length] at hv hw
  have hle : v.runs.length ≤ w.runs.length := by
    refine List.getElem?_eq_none_iff.1 ?_
    generalize hr : v.run? w.runs.length = r at hv
    cases hv
    exact hr
  have hge : w.runs.length ≤ v.runs.length := by
    refine List.getElem?_eq_none_iff.1 ?_
    generalize hr : w.run? v.runs.length = r at hw
    cases hw
    exact hr
  exact Nat.le_antisymm hle hge

/-- What is waited for is there in the end. -/
lemma World.outcome?_await {w : World σ} {id : Nat} {limit : Millis} {o : Outcome}
    (h : (w.await id limit).1 = some o) : (w.await id limit).2.outcome? id = some o := by
  unfold await at h ⊢
  simp only at h ⊢
  split at h
  next outcome houtcome =>
    cases h
    simp only [houtcome]
  next => cases h

/-- What a call has given back, where it waits for a limited time only. -/
def given : Except ControlError (Option RunStatistics) → Option (Except ControlError RunStatistics)
  | .ok statistics => statistics.map .ok
  | .error e => some (.error e)

lemma given_eq_error_iff {e : ControlError} {x : Except ControlError (Option RunStatistics)} :
    given x = some (.error e) ↔ x = .error e := by
  rcases x with _ | _ | _ <;> simp [given]

/-- What a wait gives back is what the operation has come to. -/
lemma Controller.wait_of_unclaimed {c : Controller σ ν} {h : HeldRun} {horizon : Millis}
    {outcome : Option Outcome} {w : World σ} (hheld : c.held = some h)
    (hclaimed : h.claimed = false)
    (hawait : c.world.await h.scenario (c.world.now + horizon) = (outcome, w)) :
    given (c.wait horizon).1 = outcome.bind Outcome.answer? ∧
      (c.wait horizon).2 = { c with held := some { h with claimed := true }, world := w } := by
  rw [wait, claim_of_unclaimed hheld hclaimed]
  simp only [hawait]
  cases outcome with
  | none => exact ⟨rfl, rfl⟩
  | some o => cases o <;> exact ⟨rfl, rfl⟩

lemma Controller.held_wait_of_unclaimed {c : Controller σ ν} {h : HeldRun} (horizon : Millis)
    (hheld : c.held = some h) (hclaimed : h.claimed = false) :
    (c.wait horizon).2.held = some { h with claimed := true } := by
  rw [(wait_of_unclaimed hheld hclaimed rfl).2]

namespace Attended

/-! ### Histories -/

def withWorld (s : Attended σ ν) (w : World σ) : Attended σ ν :=
  { s with controller := { s.controller with world := w } }

def start (s : Attended σ ν) (config : RunConfig) : Attended σ ν :=
  { s with controller := (s.controller.start config).2 }

/-- Make a call. It is refused at once, or else it waits. -/
def ask (s : Attended σ ν) : Attended σ ν where
  controller := s.controller.claim.2
  calls := s.calls ++ [{
    found := s.controller.held
    answer := match s.controller.claim.1 with
      | .ok _ => none
      | .error e => some (.error e) }]

/-- Make a call that waits for a limited time only. -/
def wait (s : Attended σ ν) (horizon : Millis) : Attended σ ν where
  controller := (s.controller.wait horizon).2
  calls := s.calls ++ [⟨s.controller.held, given (s.controller.wait horizon).1⟩]

/-- One thing that happens to a controller and the calls at it. Asking for its status changes
nothing, and a call that is given up is one that waits forever. -/
inductive Step : Attended σ ν → Attended σ ν → Prop
  | world {s : Attended σ ν} {w : World σ} (h : World.Step s.controller.world w) :
      Step s (s.withWorld w)
  | register {s : Attended σ ν} (b : Behavior σ) (profile : Option String) :
      Step s { s with controller := (s.controller.register b profile).2 }
  | start {s : Attended σ ν} (config : RunConfig) : Step s (s.start config)
  | stop {s : Attended σ ν} : Step s { s with controller := s.controller.stop.2 }
  | raise {s : Attended σ ν} (run : Nat) : Step s (s.withWorld (s.controller.world.raise run).2)
  | ask {s : Attended σ ν} : Step s s.ask
  /-- A call gives back what its run has come to, some time after that. -/
  | answer {s : Attended σ ν} {i : Nat} {q : WaitCall} {h : HeldRun} {o : Outcome}
      {a : Except ControlError RunStatistics} (hq : s.calls[i]? = some q)
      (hwaits : q.answer = none) (htarget : q.target? = some h)
      (houtcome : s.controller.world.outcome? h.scenario = some o) (ha : o.answer? = some a) :
      Step s { s with calls := s.calls.set i { q with answer := some a } }

abbrev Steps : Attended σ ν → Attended σ ν → Prop := Relation.ReflTransGen Step

structure IsInitial (s : Attended σ ν) : Prop where
  controller : s.controller.IsInitial
  calls : s.calls = []

variable {s s₀ t u : Attended σ ν}

lemma Step.controller (h : Step s t) : Controller.Steps s.controller t.controller := by
  cases h with
  | world h => exact .single (.world h)
  | register b profile => exact .single (.register b profile)
  | start config => exact .single (.start config)
  | stop => exact .single .stop
  | raise run => exact .single (.raise run)
  | ask => exact .single .claim
  | answer => exact .refl

lemma steps_world {w : World σ} (h : World.Steps s.controller.world w) :
    Steps s (s.withWorld w) := by
  induction h with
  | refl => exact .refl
  | tail _ hstep ih => exact ih.tail (.world hstep)

/-- To ask is to be refused, or else to be the first to do so. -/
lemma ask_eq (s : Attended σ ν) :
    (unclaimed s.controller.held = none ∧ s.controller.claim = (.error .noActiveRun, s.controller) ∧
        s.ask = { s with
          calls := s.calls ++ [⟨s.controller.held, some (.error .noActiveRun)⟩] }) ∨
      ∃ h, s.controller.held = some h ∧ h.claimed = false ∧ s.ask =
        { controller := { s.controller with held := some { h with claimed := true } }
          calls := s.calls ++ [⟨some h, none⟩] } := by
  cases hheld : s.controller.held with
  | none =>
    have hclaim : s.controller.claim = (.error .noActiveRun, s.controller) := by
      rw [Controller.claim, hheld]
    exact .inl ⟨rfl, hclaim, by rw [ask, hclaim, hheld]⟩
  | some h =>
    cases hclaimed : h.claimed with
    | true =>
      have hclaim : s.controller.claim = (.error .noActiveRun, s.controller) := by
        rw [Controller.claim, hheld]
        exact if_pos hclaimed
      exact .inl ⟨by simp [unclaimed, hclaimed], hclaim, by rw [ask, hclaim, hheld]⟩
    | false =>
      have hclaim := Controller.claim_of_unclaimed hheld hclaimed
      exact .inr ⟨h, rfl, hclaimed, by rw [ask, hclaim, hheld]⟩

/-- To wait is to ask, to let the world take its steps, and to be given an answer. -/
lemma steps_wait (s : Attended σ ν) (horizon : Millis) : Steps s (s.wait horizon) := by
  refine .head .ask ?_
  rw [wait]
  rcases s.ask_eq with ⟨-, hclaim, hask⟩ | ⟨h, hheld, hclaimed, hask⟩
  · rw [hask, Controller.wait, hclaim]
    exact .refl
  · set asked : Attended σ ν := ⟨{ s.controller with held := some { h with claimed := true } },
      s.calls ++ [⟨some h, none⟩]⟩ with hasked
    obtain ⟨outcome, w, hawait⟩ : ∃ outcome w, s.controller.world.await h.scenario
        (s.controller.world.now + horizon) = (outcome, w) := ⟨_, _, rfl⟩
    have hsteps : Steps asked (asked.withWorld w) := by
      have := s.controller.world.steps_await h.scenario (s.controller.world.now + horizon)
      rw [hawait] at this
      exact steps_world this
    -- The last call is given its answer.
    have hgives : ∀ {o a}, outcome = some o → o.answer? = some a →
        Steps asked { asked.withWorld w with calls := s.calls ++ [⟨some h, some a⟩] } := by
      rintro o a rfl ha
      have houtcome := World.outcome?_await (congrArg Prod.fst hawait)
      rw [hawait] at houtcome
      have hstep := hsteps.tail (.answer (i := s.calls.length) (q := ⟨some h, none⟩)
        (by simp [withWorld, hasked]) rfl (by simp [WaitCall.target?, unclaimed, hclaimed])
        houtcome ha)
      simpa [withWorld, hasked] using hstep
    obtain ⟨hgiven, hleft⟩ := Controller.wait_of_unclaimed hheld hclaimed hawait
    rw [hask, hgiven, hleft, hheld]
    cases houtcome : outcome.bind Outcome.answer? with
    | none => exact hsteps
    | some a =>
      obtain ⟨o, ho, ha⟩ := Option.bind_eq_some_iff.1 houtcome
      exact hgives ho ha

/-! ### What has been asked for -/

/-- What the calls have found, in their order. -/
def asked (s : Attended σ ν) : List (Option HeldRun) := s.calls.map WaitCall.found

/-- The runs whose statistics have been asked for. -/
def claimedRuns (found : List (Option HeldRun)) : List Nat :=
  found.filterMap fun f => (unclaimed f).map HeldRun.run

lemma claimedRuns_append (fs gs : List (Option HeldRun)) :
    claimedRuns (fs ++ gs) = claimedRuns fs ++ claimedRuns gs := List.filterMap_append

lemma mem_claimedRuns {found : List (Option HeldRun)} {i : Nat} :
    i ∈ claimedRuns found ↔ ∃ h, some h ∈ found ∧ h.claimed = false ∧ h.run = i := by
  simp only [claimedRuns, List.mem_filterMap, Option.map_eq_some_iff, unclaimed_eq_some]
  constructor
  · rintro ⟨_, hf, h, ⟨rfl, hclaimed⟩, rfl⟩
    exact ⟨h, hf, hclaimed, rfl⟩
  · rintro ⟨h, hf, hclaimed, rfl⟩
    exact ⟨some h, hf, h, ⟨rfl, hclaimed⟩, rfl⟩

lemma mem_claimedRuns_asked {run : Nat} :
    run ∈ claimedRuns s.asked ↔ ∃ q ∈ s.calls, ∃ g, q.target? = some g ∧ g.run = run := by
  simp only [mem_claimedRuns, asked, List.mem_map, WaitCall.target?, unclaimed_eq_some]
  constructor
  · rintro ⟨g, ⟨q, hq, hfound⟩, hclaimed, rfl⟩
    exact ⟨q, hq, g, ⟨hfound, hclaimed⟩, rfl⟩
  · rintro ⟨q, hq, g, ⟨hfound, hclaimed⟩, rfl⟩
    exact ⟨g, ⟨q, hq, hfound⟩, hclaimed, rfl⟩

/-- The runs that the calls before one wait for. -/
lemma mem_claimedRuns_take {i run : Nat} :
    run ∈ claimedRuns (s.asked.take i) ↔
      ∃ j < i, ∃ p g, s.calls[j]? = some p ∧ p.target? = some g ∧ g.run = run := by
  rw [mem_claimedRuns]
  simp only [List.mem_iff_getElem?, List.getElem?_take, asked, List.getElem?_map, WaitCall.target?,
    unclaimed_eq_some]
  constructor
  · rintro ⟨g, ⟨j, hj⟩, hclaimed, rfl⟩
    obtain ⟨hlt, hj⟩ := Option.ite_none_right_eq_some.1 hj
    obtain ⟨p, hp, hfound⟩ := Option.map_eq_some_iff.1 hj
    exact ⟨j, hlt, p, g, hp, ⟨hfound, hclaimed⟩, rfl⟩
  · rintro ⟨j, hlt, p, g, hp, ⟨hfound, hclaimed⟩, rfl⟩
    refine ⟨g, ⟨j, ?_⟩, hclaimed, rfl⟩
    rw [if_pos hlt, hp, ← hfound]
    rfl

lemma asked_ask : s.ask.asked = s.asked ++ [s.controller.held] := by simp [ask, asked]

/-- An answer does not change what a call has found. -/
lemma asked_answer {i : Nat} {q : WaitCall} {answer : Option (Except ControlError RunStatistics)}
    (hq : s.calls[i]? = some q) :
    asked { s with calls := s.calls.set i { q with answer } } = s.asked := by
  obtain ⟨hi, rfl⟩ := List.getElem?_eq_some_iff.1 hq
  rw [asked, asked, List.map_set, ← List.getElem_map WaitCall.found, List.set_getElem_self]
  simpa using hi

/-- A step may be a call, and then that finds the held run. -/
lemma Step.asked (h : Step s t) : t.asked = s.asked ∨ t.asked = s.asked ++ [s.controller.held] := by
  cases h with
  | ask => exact .inr asked_ask
  | answer hq => exact .inl (asked_answer hq)
  | _ => exact .inl rfl

/-- What is known of a call: it was refused at once, or it waits, or it has been answered with what
its run has come to. -/
inductive Stands (w : World σ) (q : WaitCall) : Prop
  | refused (htarget : q.target? = none) (hanswer : q.answer = some (.error .noActiveRun))
  | waits {h : HeldRun} (htarget : q.target? = some h) (hanswer : q.answer = none)
  | answered {h : HeldRun} {o : Outcome} {a : Except ControlError RunStatistics}
      (htarget : q.target? = some h) (houtcome : w.outcome? h.scenario = some o)
      (ha : o.answer? = some a) (hanswer : q.answer = some a)

/-- With a step the held run has come to its end, with an outcome of its own. -/
structure Concludes (s t : Attended σ ν) (i : Nat) (o : Outcome) : Prop where
  step : Step s t
  held : ∃ h, s.controller.held = some h ∧ t.controller.held = some h ∧ h.run = i ∧
    s.controller.isFinished h = false ∧ t.controller.isFinished h = true
  outcome : ∃ r, s.controller.world.run? i = some r ∧ o.IsOf r

/-- On the way from `s₀` to `s` a run has come to its end, with an outcome of its own. -/
def Earned (s₀ s : Attended σ ν) (i : Nat) (o : Outcome) : Prop :=
  ∃ t u, Steps s₀ t ∧ Concludes t u i o ∧ Steps u s

lemma Earned.tail {i : Nat} {o : Outcome} (h : Earned s₀ s i o) (hstep : Step s t) :
    Earned s₀ t i o := by
  obtain ⟨u, v, hu, hconcludes, hv⟩ := h
  exact ⟨u, v, hu, hconcludes, hv.tail hstep⟩

/-- What a run has come to can be given back. -/
lemma Earned.exists_answer {i : Nat} {o : Outcome} (h : Earned s₀ s i o) :
    ∃ a, o.answer? = some a := by
  obtain ⟨-, -, -, ⟨-, -, r, -, hof⟩, -⟩ := h
  cases hof with
  | statistics elapsed => exact ⟨_, rfl⟩
  | failed e => exact ⟨_, rfl⟩

/-! ### The invariant -/

/-- What holds of a controller and its calls at all times. Every run has one operation, and both
have the same number. -/
structure Sound (s₀ s : Attended σ ν) : Prop where
  reachable : s.controller.Reachable
  carriesOut : s.controller.world.CarriesOut
  numbered : s.controller.world.nextOperation = s.controller.world.runs.length
  /-- The held run is the last one, and has been claimed if a call has asked for its statistics. -/
  held : ∀ h, s.controller.held = some h → h.run + 1 = s.controller.world.runs.length ∧
    h.scenario = h.run ∧ (h.claimed = true ↔ h.run ∈ claimedRuns s.asked)
  asked : ∀ h, some h ∈ s.asked → h.run < s.controller.world.runs.length ∧ h.scenario = h.run
  /-- What a call finds claimed has been asked for by a call before it. -/
  found : ∀ i h, s.asked[i]? = some (some h) →
    (h.claimed = true ↔ h.run ∈ claimedRuns (s.asked.take i))
  stands : ∀ q ∈ s.calls, Stands s.controller.world q
  earned : ∀ i o, s.controller.world.outcome? i = some o → Earned s₀ s i o

lemma IsInitial.sound (h : s.IsInitial) : Sound s s where
  reachable := ⟨_, h.controller, .refl⟩
  carriesOut o ho := by
    rw [h.controller.actors] at ho
    cases ho
  numbered := by rw [h.controller.nextOperation, h.controller.runs, List.length_nil]
  held g hg := nomatch hg.symm.trans h.controller.held
  asked g hg := by simp [Attended.asked, h.calls] at hg
  found i g hg := by simp [Attended.asked, h.calls] at hg
  stands q hq := by simp [h.calls] at hq
  earned i o houtcome := by simp [World.outcome?, h.controller.outcomes] at houtcome

lemma Stands.of_outcomes {w v : World σ} {q : WaitCall} (h : Stands w q)
    (hkept : ∀ i o, w.outcome? i = some o → v.outcome? i = some o) : Stands v q := by
  cases h with
  | refused htarget hanswer => exact .refused htarget hanswer
  | waits htarget hanswer => exact .waits htarget hanswer
  | answered htarget houtcome ha hanswer => exact .answered htarget (hkept _ _ houtcome) ha hanswer

/-- A step of the world, or of the controller on its world. -/
lemma Sound.of_world (h : Sound s₀ s) (hstep : Step s t)
    (hheld : t.controller.held = s.controller.held) (hcalls : t.calls = s.calls)
    (hcarriesOut : t.controller.world.CarriesOut)
    (hnext : t.controller.world.nextOperation = s.controller.world.nextOperation)
    (hlater : s.controller.world.Later t.controller.world)
    (hkept : ∀ i o, s.controller.world.outcome? i = some o → t.controller.world.outcome? i = some o)
    (hnew : ∀ i o, t.controller.world.outcome? i = some o →
      s.controller.world.outcome? i = some o ∨ Concludes s t i o) (hs : Steps s₀ s) :
    Sound s₀ t := by
  have hasked : t.asked = s.asked := congrArg (List.map WaitCall.found) hcalls
  have hlength := hlater.length_runs
  exact
    { reachable := h.reachable.steps hstep.controller
      carriesOut := hcarriesOut
      numbered := by rw [hnext, hlength, h.numbered]
      held := by
        rw [hheld, hlength, hasked]
        exact h.held
      asked := by
        rw [hlength, hasked]
        exact h.asked
      found := hasked ▸ h.found
      stands := by
        rw [hcalls]
        exact fun q hq => (h.stands q hq).of_outcomes hkept
      earned := fun i o hi => (hnew i o hi).elim (fun hi => (h.earned i o hi).tail hstep)
        fun hconcludes => ⟨s, t, hs, hconcludes, .refl⟩ }

lemma Sound.of_keeps (h : Sound s₀ s) (hs : Steps s₀ s) (hstep : Step s t)
    (hheld : t.controller.held = s.controller.held) (hcalls : t.calls = s.calls)
    (hkeeps : s.controller.world.Keeps t.controller.world) : Sound s₀ t := by
  have houtcomes : ∀ i, t.controller.world.outcome? i = s.controller.world.outcome? i := fun i => by
    rw [World.outcome?, hkeeps.outcomes, World.outcome?]
  exact h.of_world hstep hheld hcalls (h.carriesOut.keeps hkeeps) hkeeps.nextOperation hkeeps.later
    (fun i o hi => (houtcomes i).trans hi) (fun i o hi => .inl ((houtcomes i).symm.trans hi)) hs

/-- With a step of the world the held run may come to its end. -/
lemma Sound.world (h : Sound s₀ s) (hs : Steps s₀ s) {w : World σ}
    (hstep : World.Step s.controller.world w) : Sound s₀ (s.withWorld w) := by
  have hturned := h.reachable.inv.turned_of_step hstep
  obtain ⟨hcarriesOut, hconcluded⟩ := h.carriesOut.step hstep
  have hsound := h.of_world (.world hstep) rfl rfl hcarriesOut hturned.nextOperation hturned.later
  cases hconcluded with
  | nothing houtcomes =>
    have hsame : ∀ i, w.outcome? i = s.controller.world.outcome? i := fun i => by
      rw [World.outcome?, houtcomes, World.outcome?]
    exact hsound (fun i o hi => (hsame i).trans hi) (fun i _ hi => .inl ((hsame i).symm.trans hi))
      hs
  | @scenario o r outcome ho hr hof houtcomes =>
    obtain ⟨g, hheld, hscenario, hrun, hrunning⟩ := h.reachable.of_operation ho
    have hnone : s.controller.world.outcome? o.id = none :=
      hscenario ▸ (Controller.isFinished_eq_false_iff h.reachable.inv g).1 hrunning
    obtain ⟨-, hnumber, -⟩ := h.held g hheld
    have hcons : ∀ i, w.outcome? i = if i = o.id then some outcome else
        s.controller.world.outcome? i := fun i => Inv.outcome?_cons houtcomes
    refine hsound (fun i o' hi => ?_) (fun i o' hi => ?_) hs
    · refine (hcons i).trans ?_
      rw [if_neg, hi]
      rintro rfl
      rw [hnone] at hi
      cases hi
    · have hi' := (hcons i).symm.trans hi
      split_ifs at hi' with hid
      · cases hi'
        have hplace : i = g.run := by omega
        refine .inr ⟨.world hstep, ⟨g, hheld, hheld, hplace.symm, hrunning, ?_⟩, r, ?_, hof⟩
        · have hreachable := h.reachable.steps (Step.world hstep).controller
          rw [Controller.isFinished_eq hreachable.inv, hscenario, ← hid]
          exact Option.isSome_iff_exists.2 ⟨_, hi⟩
        · rw [hplace, hrun]
          exact hr
      · exact .inl hi'

lemma Sound.start (h : Sound s₀ s) (config : RunConfig) :
    Sound s₀ (s.start config) := by
  rcases s.controller.refused_or_started config with ⟨e, hrefused⟩ | ⟨runId, g, -, hstarted⟩
  · have heq : s.start config = s := by rw [Attended.start, hrefused.start_eq]
    rw [heq]
    exact h
  · obtain ⟨template, context, units, hkeeps⟩ := hstarted.world
    have hlength : (s.controller.start config).2.world.runs.length =
        s.controller.world.runs.length + 1 := by
      rw [hkeeps.later.length_runs]
      simp [World.opened, World.openRun, World.submit]
    have houtcomes : ∀ i, (s.controller.start config).2.world.outcome? i =
        s.controller.world.outcome? i := fun i => by
      rw [World.outcome?, hkeeps.outcomes]
      rfl
    have hnew : g.run ∉ claimedRuns s.asked := by
      rw [mem_claimedRuns, hstarted.run]
      rintro ⟨f, hf, -, hrun⟩
      exact Nat.ne_of_lt (h.asked f hf).1 hrun
    exact
      { reachable := h.reachable.steps (Step.start config).controller
        carriesOut := (h.carriesOut.opened template context units).keeps hkeeps
        numbered := by
          show (s.controller.start config).2.world.nextOperation =
            (s.controller.start config).2.world.runs.length
          rw [hkeeps.nextOperation, hlength]
          exact congrArg (· + 1) h.numbered
        held := by
          intro f hf
          cases hstarted.held.symm.trans hf
          refine ⟨?_, ?_, ?_⟩
          · rw [hstarted.run]
            exact hlength.symm
          · rw [hstarted.scenario, hstarted.run, h.numbered]
          · rw [hstarted.claimed]
            exact iff_of_false Bool.false_ne_true hnew
        asked := fun f hf => by
          obtain ⟨hlt, hscenario⟩ := h.asked f hf
          exact ⟨Nat.lt_of_lt_of_le hlt (hlength ▸ Nat.le_succ _), hscenario⟩
        found := h.found
        stands := fun q hq => (h.stands q hq).of_outcomes fun i o hi => (houtcomes i).trans hi
        earned := fun i o hi => (h.earned i o ((houtcomes i).symm.trans hi)).tail (.start config) }

/-- A call finds the held run as it is. -/
lemma Sound.found_ask (h : Sound s₀ s) {i : Nat} {g : HeldRun}
    (hg : (s.asked ++ [s.controller.held])[i]? = some (some g)) :
    g.claimed = true ↔ g.run ∈ claimedRuns ((s.asked ++ [s.controller.held]).take i) := by
  rcases Nat.lt_trichotomy i s.asked.length with hlt | rfl | hgt
  · rw [List.getElem?_append_left hlt] at hg
    rw [List.take_append_of_le_length (Nat.le_of_lt hlt)]
    exact h.found i g hg
  · rw [List.getElem?_concat_length, Option.some_inj] at hg
    rw [List.take_left]
    exact (h.held g hg).2.2
  · rw [List.getElem?_eq_none (by rw [List.length_append]; exact hgt)] at hg
    cases hg

lemma world_ask : s.ask.controller.world = s.controller.world := by
  rcases s.ask_eq with ⟨-, -, hask⟩ | ⟨g, -, -, hask⟩ <;> rw [hask]

/-- The call is refused, or claims the held run. -/
lemma Sound.claim_ask (h : Sound s₀ s) :
    (∀ g, s.ask.controller.held = some g → g.run + 1 = s.controller.world.runs.length ∧
      g.scenario = g.run ∧ (g.claimed = true ↔ g.run ∈ claimedRuns s.ask.asked)) ∧
    ∀ q ∈ s.ask.calls, Stands s.controller.world q := by
  rw [asked_ask, claimedRuns_append]
  rcases s.ask_eq with ⟨hunclaimed, -, hask⟩ | ⟨g, hheld, hclaimed, hask⟩
  · have hnone : claimedRuns [s.controller.held] = [] := by simp [claimedRuns, hunclaimed]
    rw [hask, hnone, List.append_nil]
    refine ⟨h.held, List.forall_mem_append.2 ⟨h.stands, ?_⟩⟩
    exact List.forall_mem_singleton.2 (.refused hunclaimed rfl)
  · have hunclaimed : unclaimed (some g) = some g := by simp [unclaimed, hclaimed]
    have hone : claimedRuns [s.controller.held] = [g.run] := by
      simp [claimedRuns, hheld, hunclaimed]
    obtain ⟨hlast, hscenario, -⟩ := h.held g hheld
    rw [hask, hone]
    refine ⟨?_, List.forall_mem_append.2 ⟨h.stands, ?_⟩⟩
    · rintro _ ⟨⟩
      exact ⟨hlast, hscenario, by simp⟩
    · exact List.forall_mem_singleton.2 (.waits hunclaimed rfl)

lemma Sound.ask (h : Sound s₀ s) : Sound s₀ s.ask := by
  obtain ⟨hheld, hstands⟩ := h.claim_ask
  exact
    { reachable := h.reachable.steps (Step.ask (s := s)).controller
      carriesOut := by rw [world_ask]; exact h.carriesOut
      numbered := by rw [world_ask]; exact h.numbered
      held := by rw [world_ask]; exact hheld
      asked := by
        rw [world_ask, asked_ask]
        intro g hg
        rcases List.mem_append.1 hg with hg | hg
        · exact h.asked g hg
        · obtain ⟨hlast, hscenario, -⟩ := h.held g (List.mem_singleton.1 hg).symm
          exact ⟨by omega, hscenario⟩
      found := fun i g hg => by
        rw [asked_ask] at hg ⊢
        exact h.found_ask hg
      stands := by rw [world_ask]; exact hstands
      earned := fun i o hi => by
        rw [world_ask] at hi
        exact (h.earned i o hi).tail .ask }

lemma Sound.answer (h : Sound s₀ s) {i : Nat} {q : WaitCall} {g : HeldRun} {o : Outcome}
    {a : Except ControlError RunStatistics} (hq : s.calls[i]? = some q) (hwaits : q.answer = none)
    (htarget : q.target? = some g) (houtcome : s.controller.world.outcome? g.scenario = some o)
    (ha : o.answer? = some a) :
    Sound s₀ { s with calls := s.calls.set i { q with answer := some a } } := by
  set t : Attended σ ν := { s with calls := s.calls.set i { q with answer := some a } } with ht
  have hstep : Step s t := .answer hq hwaits htarget houtcome ha
  have hasked : t.asked = s.asked := asked_answer hq
  exact
    { reachable := h.reachable
      carriesOut := h.carriesOut
      numbered := h.numbered
      held := hasked ▸ h.held
      asked := hasked ▸ h.asked
      found := hasked ▸ h.found
      stands := fun p hp => (List.mem_or_eq_of_mem_set hp).elim (h.stands p) fun heq =>
        heq ▸ .answered htarget houtcome ha rfl
      earned := fun j o hj => (h.earned j o hj).tail hstep }

lemma Sound.step (h : Sound s₀ s) (hs : Steps s₀ s) (hstep : Step s t) : Sound s₀ t := by
  cases hstep with
  | world hworld => exact h.world hs hworld
  | register b profile =>
    obtain ⟨hkeeps, hheld⟩ := s.controller.step_register b profile
    exact h.of_keeps hs (.register b profile) hheld rfl hkeeps
  | start config => exact h.start config
  | stop =>
    obtain ⟨hkeeps, hheld⟩ := s.controller.step_stop
    exact h.of_keeps hs .stop hheld rfl hkeeps
  | raise run => exact h.of_keeps hs (.raise run) rfl rfl (s.controller.world.keeps_raise run)
  | ask => exact h.ask
  | answer hq hwaits htarget houtcome ha => exact h.answer hq hwaits htarget houtcome ha

theorem Steps.sound (hs : Steps s₀ s) (h₀ : s₀.IsInitial) : Sound s₀ s := by
  induction hs with
  | refl => exact h₀.sound
  | tail hs hstep ih => exact ih.step hs hstep

/-! ### What calls are given -/

namespace Sound

variable {p q : WaitCall} {g h : HeldRun} {i j : Nat}

lemma answer_eq_noActiveRun_iff (hs : Sound s₀ s) (hq : q ∈ s.calls) :
    q.answer = some (.error .noActiveRun) ↔ q.target? = none := by
  cases hs.stands q hq with
  | refused htarget hanswer => simp [htarget, hanswer]
  | waits htarget hanswer => simp [htarget, hanswer]
  | @answered _ o _ htarget houtcome ha hanswer =>
    simpa [htarget, hanswer, ← ha] using o.answer?_ne

lemma claimed_iff (hs : Sound s₀ s) (hq : s.calls[i]? = some q) (hfound : q.found = some h) :
    h.claimed = true ↔
      ∃ j < i, ∃ p g, s.calls[j]? = some p ∧ p.target? = some g ∧ g.run = h.run := by
  rw [← mem_claimedRuns_take]
  refine hs.found i h ?_
  rw [Attended.asked, List.getElem?_map, hq, ← hfound]
  rfl

/-- Of two calls the later one does not wait for the run that the earlier one waits for. -/
lemma run_ne_of_lt (hs : Sound s₀ s) (hlt : i < j) (hp : s.calls[i]? = some p)
    (hq : s.calls[j]? = some q) (hg : p.target? = some g) (hh : q.target? = some h) :
    g.run ≠ h.run := by
  intro hrun
  obtain ⟨hfound, hclaimed⟩ := unclaimed_eq_some.1 hh
  have := (hs.claimed_iff hq hfound).2 ⟨i, hlt, p, g, hp, hg, hrun⟩
  rw [hclaimed] at this
  cases this

lemma eq_of_run_eq (hs : Sound s₀ s) (hp : s.calls[i]? = some p) (hq : s.calls[j]? = some q)
    (hg : p.target? = some g) (hh : q.target? = some h) (hrun : g.run = h.run) : i = j := by
  rcases Nat.lt_trichotomy i j with hlt | heq | hgt
  · exact absurd hrun (hs.run_ne_of_lt hlt hp hq hg hh)
  · exact heq
  · exact absurd hrun.symm (hs.run_ne_of_lt hgt hq hp hh hg)

lemma earned_of_answer (hs : Sound s₀ s) (hq : q ∈ s.calls) {statistics : RunStatistics}
    (hanswer : q.answer = some (.ok statistics)) :
    ∃ h, q.found = some h ∧ h.claimed = false ∧ Earned s₀ s h.run (.statistics statistics) := by
  cases hs.stands q hq with
  | refused htarget hanswer' => simp [hanswer'] at hanswer
  | waits htarget hanswer' => simp [hanswer'] at hanswer
  | @answered h o _ htarget houtcome ha hanswer' =>
    obtain ⟨hfound, hclaimed⟩ := unclaimed_eq_some.1 htarget
    have hmem : some h ∈ s.asked := hfound ▸ List.mem_map_of_mem hq
    rw [hanswer'] at hanswer
    cases hanswer
    have ho : o = .statistics statistics := by cases o <;> simp_all [Outcome.answer?]
    subst ho
    refine ⟨h, hfound, hclaimed, ?_⟩
    rw [← (hs.asked h hmem).2]
    exact hs.earned _ _ houtcome

lemma isFinished_of_answer (hs : Sound s₀ s) (hq : q ∈ s.calls) (hg : q.target? = some g)
    {a : Except ControlError RunStatistics} (hanswer : q.answer = some a) :
    s.controller.isFinished g = true := by
  cases hs.stands q hq with
  | refused htarget hanswer' => simp [htarget] at hg
  | waits htarget hanswer' => simp [hanswer'] at hanswer
  | answered htarget houtcome ha hanswer' =>
    cases htarget.symm.trans hg
    rw [Controller.isFinished_eq hs.reachable.inv]
    exact Option.isSome_iff_exists.2 ⟨_, houtcome⟩

/-- A call that waits can be answered as soon as its run has come to its end. -/
lemma exists_answer (hs : Sound s₀ s) (hq : s.calls[i]? = some q) (hg : q.target? = some g)
    (hwaits : q.answer = none) (hfinished : s.controller.isFinished g = true) :
    ∃ a, Step s { s with calls := s.calls.set i { q with answer := some a } } := by
  rw [Controller.isFinished_eq hs.reachable.inv] at hfinished
  obtain ⟨o, ho⟩ := Option.isSome_iff_exists.1 hfinished
  obtain ⟨a, ha⟩ := (hs.earned _ _ ho).exists_answer
  exact ⟨a, .answer hq hwaits hg ho ha⟩

/-- A run that is no longer held is not asked for any more. -/
lemma not_mem_claimedRuns_step (hs : Sound s₀ s) (hlt : i + 1 < s.controller.world.runs.length)
    (hi : i ∉ claimedRuns s.asked) (hstep : Step s t) : i ∉ claimedRuns t.asked := by
  rcases hstep.asked with hasked | hasked
  · rwa [hasked]
  · rw [hasked, claimedRuns_append, List.mem_append, not_or]
    refine ⟨hi, fun hmem => ?_⟩
    obtain ⟨h, hh, -, rfl⟩ := mem_claimedRuns.1 hmem
    obtain ⟨hlast, -, -⟩ := hs.held h (List.mem_singleton.1 hh).symm
    omega

lemma not_mem_claimedRuns_steps (hs : Sound s₀ s) (h₀ : Steps s₀ s)
    (hlt : i + 1 < s.controller.world.runs.length) (hi : i ∉ claimedRuns s.asked)
    (hsteps : Steps s t) : i ∉ claimedRuns t.asked := by
  suffices h : Sound s₀ t ∧ i + 1 < t.controller.world.runs.length ∧ i ∉ claimedRuns t.asked from
    h.2.2
  induction hsteps with
  | refl => exact ⟨hs, hlt, hi⟩
  | @tail t u hsteps hstep ih =>
    obtain ⟨ht, hlt, hi⟩ := ih
    refine ⟨ht.step (h₀.trans hsteps) hstep, ?_, ht.not_mem_claimedRuns_step hlt hi hstep⟩
    obtain ⟨-, hgrows⟩ := Controller.Steps.inv hstep.controller ht.reachable.inv
    obtain ⟨q, hq, -⟩ := hgrows _ _ (List.getElem?_eq_getElem hlt)
    exact (List.getElem?_eq_some_iff.1 hq).1

/-- What takes the place of a run that nobody has asked for keeps everybody from doing so. -/
lemma run_ne_of_replaced (hs : Sound s₀ s) (h₀ : Steps s₀ s) {config : RunConfig} {runId : String}
    (hheld : s.controller.held = some h) (hclaimed : h.claimed = false)
    (hstart : (s.controller.start config).1 = .ok runId) (hsteps : Steps (s.start config) t)
    (hq : q ∈ t.calls) (hg : q.target? = some g) : g.run ≠ h.run := by
  obtain ⟨hlast, -, hiff⟩ := hs.held h hheld
  have hnot : h.run ∉ claimedRuns s.asked := by
    rw [← hiff, hclaimed]
    exact Bool.false_ne_true
  have hlt : h.run + 1 < (s.start config).controller.world.runs.length := by
    rcases s.controller.refused_or_started config with ⟨e, hrefused⟩ | ⟨-, f, -, hstarted⟩
    · rw [hrefused.start_eq] at hstart
      cases hstart
    · obtain ⟨hlast', -, -⟩ := (hs.start config).held f hstarted.held
      rw [hstarted.run] at hlast'
      omega
  have hnever :=
    (hs.start config).not_mem_claimedRuns_steps (h₀.tail (.start config)) hlt hnot hsteps
  obtain ⟨hfound, hclaimed'⟩ := unclaimed_eq_some.1 hg
  rintro hrun
  exact hnever (mem_claimedRuns.2 ⟨g, hfound ▸ List.mem_map_of_mem hq, hclaimed', hrun⟩)

end Sound

/-- Whatever happens at a controller: no two calls wait for the same run; a call that is given
statistics is given those that the run it had found came to when it was held; a call is refused
exactly if it finds no run, or one that a call before it waits for; nobody is ever given the
statistics of a run that is replaced before anyone has asked for them; and by the time that a call
is answered its run has finished, so that the status shows no activity if that run is still held.
A call whose run has finished can be answered. -/
theorem Steps.statistics_once (hs : Steps s₀ s) (h₀ : s₀.IsInitial) :
    (∀ (i j : Nat) (p q : WaitCall) (g h : HeldRun), s.calls[i]? = some p → s.calls[j]? = some q →
      p.target? = some g → q.target? = some h → g.run = h.run → i = j) ∧
    (∀ q ∈ s.calls, ∀ statistics, q.answer = some (.ok statistics) →
      ∃ h, q.target? = some h ∧ Earned s₀ s h.run (.statistics statistics)) ∧
    (∀ (i : Nat) (q : WaitCall), s.calls[i]? = some q → (q.answer = some (.error .noActiveRun) ↔
      ∀ h, q.found = some h →
        ∃ j < i, ∃ (p : WaitCall) (g : HeldRun),
          s.calls[j]? = some p ∧ p.target? = some g ∧ g.run = h.run)) ∧
    (∀ h config runId, s.controller.held = some h → h.claimed = false →
      (s.controller.start config).1 = .ok runId → ∀ t, Steps (s.start config) t →
        ∀ q ∈ t.calls, ∀ g, q.target? = some g → g.run ≠ h.run) ∧
    (∀ q ∈ s.calls, ∀ g, q.target? = some g → ∀ a, q.answer = some a →
      s.controller.isFinished g = true ∧
        ∀ h, s.controller.held = some h → h.run = g.run → s.controller.status.active = false) ∧
    ∀ (i : Nat) (q : WaitCall) (g : HeldRun), s.calls[i]? = some q → q.target? = some g →
      q.answer = none → s.controller.isFinished g = true →
        ∃ a, Step s { s with calls := s.calls.set i { q with answer := some a } } := by
  have hsound := hs.sound h₀
  refine ⟨fun i j p q g h hp hq hg hh hrun => hsound.eq_of_run_eq hp hq hg hh hrun,
    fun q hq statistics hanswer => ?_, fun i q hq => ?_,
    fun h config runId hheld hclaimed hstart t ht q hq g hg =>
      hsound.run_ne_of_replaced hs hheld hclaimed hstart ht hq hg,
    fun q hq g hg a hanswer => ?_,
    fun i q g hq hg hwaits hfinished => hsound.exists_answer hq hg hwaits hfinished⟩
  · obtain ⟨h, hfound, hclaimed, hearned⟩ := hsound.earned_of_answer hq hanswer
    exact ⟨h, unclaimed_eq_some.2 ⟨hfound, hclaimed⟩, hearned⟩
  · rw [hsound.answer_eq_noActiveRun_iff (List.mem_of_getElem? hq), WaitCall.target?,
      unclaimed_eq_none]
    exact forall₂_congr fun h hfound => hsound.claimed_iff hq hfound
  · have hfinished := hsound.isFinished_of_answer hq hg hanswer
    refine ⟨hfinished, fun h hheld hrun => ?_⟩
    obtain ⟨-, hscenario, -⟩ := hsound.held h hheld
    obtain ⟨hfound, -⟩ := unclaimed_eq_some.1 hg
    obtain ⟨-, hscenario'⟩ := hsound.asked g (hfound ▸ List.mem_map_of_mem hq)
    have hsame : h.scenario = g.scenario := by omega
    have hflagged : s.controller.isFinished h = true := by
      rw [Controller.isFinished, hsame]
      exact hfinished
    simp only [Controller.status, hheld, hflagged, Bool.not_true]

/-- A call that waits at a controller is refused exactly if there is no run, or a call before it
waits for that of the controller. Any other call is the only one for its run: when it gives
something back, that run has finished, the status shows no activity, and statistics are those that
the run has come to. -/
theorem Steps.wait_once (hs : Steps s₀ s) (h₀ : s₀.IsInitial) (horizon : Millis) :
    ((s.controller.wait horizon).1 = .error .noActiveRun ↔
      ∀ h, s.controller.held = some h →
        ∃ q ∈ s.calls, ∃ g, q.target? = some g ∧ g.run = h.run) ∧
    ∀ a, given (s.controller.wait horizon).1 = some a → a ≠ .error .noActiveRun →
      ∃ h, s.controller.held = some h ∧ (s.controller.wait horizon).2.isFinished h = true ∧
        (s.controller.wait horizon).2.status.active = false ∧
        (∀ q ∈ s.calls, ∀ g, q.target? = some g → g.run ≠ h.run) ∧
        ∀ statistics, a = .ok statistics →
          Earned s₀ (s.wait horizon) h.run (.statistics statistics) := by
  have hbefore := hs.sound h₀
  have hsound : Sound s₀ (s.wait horizon) := Steps.sound (hs.trans (s.steps_wait horizon)) h₀
  set q : WaitCall := ⟨s.controller.held, given (s.controller.wait horizon).1⟩
  have hq : q ∈ (s.wait horizon).calls := List.mem_append_right _ (List.mem_singleton_self q)
  have hrefused : q.answer = some (.error .noActiveRun) ↔
      (s.controller.wait horizon).1 = .error .noActiveRun := given_eq_error_iff
  have hclaimed : ∀ h, s.controller.held = some h → (h.claimed = true ↔
      ∃ q ∈ s.calls, ∃ g, q.target? = some g ∧ g.run = h.run) := fun h hheld => by
    rw [(hbefore.held h hheld).2.2, mem_claimedRuns_asked]
  refine ⟨?_, fun a ha hne => ?_⟩
  · rw [← hrefused, hsound.answer_eq_noActiveRun_iff hq, WaitCall.target?, unclaimed_eq_none]
    exact forall₂_congr hclaimed
  · have htarget : q.target? ≠ none := by
      rw [Ne, ← hsound.answer_eq_noActiveRun_iff hq]
      exact fun h => hne (Option.some.inj (ha.symm.trans h))
    obtain ⟨h, hh⟩ := Option.ne_none_iff_exists'.1 htarget
    obtain ⟨hheld, hunclaimed⟩ := unclaimed_eq_some.1 hh
    have hfinished := hsound.isFinished_of_answer hq hh ha
    have hleft := Controller.held_wait_of_unclaimed horizon hheld hunclaimed
    refine ⟨h, hheld, hfinished, ?_, fun p hp g hg hrun => ?_, fun statistics hstatistics => ?_⟩
    · have hflagged :
          (s.controller.wait horizon).2.isFinished { h with claimed := true } = true := hfinished
      simp only [Controller.status, hleft, hflagged, Bool.not_true]
    · have := (hclaimed h hheld).2 ⟨p, hp, g, hg, hrun⟩
      rw [hunclaimed] at this
      cases this
    · obtain ⟨g, hfound, -, hearned⟩ :=
        hsound.earned_of_answer hq (ha.trans (congrArg _ hstatistics))
      cases hfound.symm.trans hheld
      exact hearned

/-! A call finds a run that has finished, and is answered after that has been replaced. -/

def napsAtFirst : Attended Unit Empty := { controller := Controller.naps }

/-- The call waits for the first run, and the second one is held. -/
def napsReplaced : Attended Unit Empty :=
  (ask { controller := Controller.napping }).start { behavior := "nap" }

def napsAnswered : Attended Unit Empty :=
  { napsReplaced with
    calls := [⟨some ⟨"1", "nap", 0, 0, false⟩, some (.ok { created := 1, peak := 1 })⟩] }

theorem statistics_once_of_naps :
    Steps napsAtFirst napsAnswered ∧ napsAtFirst.IsInitial ∧
      Earned napsAtFirst napsAnswered 0 (.statistics { created := 1, peak := 1 }) ∧
      napsAnswered.controller.held.map HeldRun.run = some 1 := by
  have hheld : Controller.napping.held = some ⟨"1", "nap", 0, 0, false⟩ := by decide +kernel
  have hcalls : napsReplaced.calls = [⟨some ⟨"1", "nap", 0, 0, false⟩, none⟩] := by
    show (ask { controller := Controller.napping }).calls = _
    rw [ask, Controller.claim_of_unclaimed hheld rfl, hheld]
    rfl
  have hanswer : Step napsReplaced napsAnswered := by
    have houtcome : napsReplaced.controller.world.outcome? 0 =
        some (.statistics { created := 1, peak := 1 }) := by decide +kernel
    have := Step.answer (s := napsReplaced) (i := 0) (by rw [hcalls]; rfl) rfl rfl houtcome rfl
    rwa [hcalls] at this
  have hstart : Step napsAtFirst
      (napsAtFirst.start { behavior := "nap", watchInterval := 3600000 }) :=
    .start _
  have hfinish : Steps (napsAtFirst.start { behavior := "nap", watchInterval := 3600000 })
      { controller := Controller.napping } := steps_world (World.steps_settle _)
  have hsteps : Steps napsAtFirst napsAnswered :=
    .head hstart (hfinish.trans (.head .ask (.head (.start _) (.single hanswer))))
  have hinitial : napsAtFirst.IsInitial := ⟨⟨rfl, rfl, rfl, rfl, rfl, rfl⟩, rfl⟩
  obtain ⟨-, hgiven, -⟩ := hsteps.statistics_once hinitial
  obtain ⟨h, htarget, hearned⟩ := hgiven _ (List.mem_singleton_self _) _ rfl
  cases htarget
  exact ⟨hsteps, hinitial, hearned, by decide +kernel⟩

end Attended

end LoadTest
