import LoadTest.Proofs.Reachable
import LoadTest.Scenario.Builtin

/-!
# Runs that are stopped for good

A controller carries out one scenario at a time, and what it has replaced is stopped. A run that is
stopped stays so: its signal is raised, its users have been aborted, and so is whoever arrives.
-/

namespace LoadTest

variable {σ ν : Type}

/-- The run is stopped for good: everyone within reach has been aborted, and whoever arrives is
aborted too. -/
structure Run.IsStopped (r : Run) : Prop where
  raised : r.isRaised = true
  aborted : r.pool.aborted = true
  reached : ∀ m ∈ r.pool.members, m.IsAborted
  arriving : ∀ m, ∀ n ∈ (r.pool.register m).members, n.IsAborted

lemma Run.isStopped_iff {r : Run} (hsound : r.pool.Sound) :
    r.IsStopped ↔ r.isRaised = true ∧ r.pool.aborted = true := by
  constructor
  · intro h
    exact ⟨h.raised, h.aborted⟩
  · rintro ⟨hraised, haborted⟩
    exact ⟨hraised, haborted, hsound haborted, hsound.register haborted⟩

namespace Controller

variable {c c' : Controller σ ν} {i : Nat} {r : Run} {h : HeldRun}

/-- A stopped run is there forever, and stays stopped. -/
lemma Reachable.isStopped_of_steps (hc : c.Reachable) (hr : c.world.run? i = some r)
    (hstopped : r.IsStopped) (hsteps : Steps c c') :
    ∃ q, c'.world.run? i = some q ∧ q.IsStopped := by
  obtain ⟨hinv, hgrows⟩ := Steps.inv hsteps hc.inv
  obtain ⟨q, hq, hlater⟩ := hgrows i r hr
  refine ⟨q, hq, (Run.isStopped_iff (hinv.sound i q hq)).2 ?_⟩
  exact ⟨hlater.1 hstopped.raised, hlater.2.1 hstopped.aborted⟩

lemma Reachable.isStopped_of_left (hc : c.Reachable) (hr : c.world.run? i = some r)
    (hleft : ∀ h, c.held = some h → h.run ≠ i) : r.IsStopped :=
  (Run.isStopped_iff (hc.inv.sound i r hr)).2 (hc.inv.left i r hr hleft)

/-- An operation under way is that of the held run, and that has not finished. -/
lemma Reachable.of_operation (hc : c.Reachable) {o : Operation}
    (ho : .operation o ∈ c.world.actors) :
    ∃ h, c.held = some h ∧ h.scenario = o.id ∧ h.run = o.run ∧ c.isFinished h = false := by
  have htask : (o.id, o.run) ∈ c.world.tasks := List.mem_filterMap.2 ⟨_, ho, rfl⟩
  rw [hc.inv.tasks] at htask
  obtain ⟨h, hmem, heq⟩ := List.mem_map.1 htask
  obtain ⟨hheld, hnone⟩ := Option.filter_eq_some_iff.1 (Option.mem_toList.1 hmem)
  obtain ⟨hscenario, hrun⟩ := Prod.mk.inj heq
  refine ⟨h, hheld, hscenario, hrun, (isFinished_eq_false_iff hc.inv h).2 ?_⟩
  exact Option.isNone_iff_eq_none.1 hnone

lemma Reachable.length_tasks (hc : c.Reachable) : c.world.tasks.length ≤ 1 := by
  rw [hc.inv.tasks, List.length_map]
  cases unfinished c.held c.world <;> simp

/-- A start needs the held run to have finished. -/
lemma isFinished_of_start {config : RunConfig} {runId : String}
    (hstart : (c.start config).1 = .ok runId) (hheld : c.held = some h) :
    c.isFinished h = true := by
  by_contra hrunning
  have hany : (c.held.any fun h => !c.isFinished h) = true := by
    rw [hheld]
    simpa using hrunning
  rw [start, if_pos hany] at hstart
  cases hstart

/-- At all times a controller carries out one scenario at most, which is that of the held run; it
starts a run only if it holds none or that has finished; and every other run that it has started is
stopped for good. -/
theorem Reachable.single_run (hc : c.Reachable) :
    (∀ id < c.world.nextOperation, c.world.outcome? id = none →
      ∃ h, c.held = some h ∧ h.scenario = id) ∧
    c.world.tasks.length ≤ 1 ∧
    (∀ o, .operation o ∈ c.world.actors →
      ∃ h, c.held = some h ∧ h.scenario = o.id ∧ h.run = o.run ∧ c.isFinished h = false) ∧
    (∀ config runId, (c.start config).1 = .ok runId →
      ∀ h, c.held = some h → c.isFinished h = true) ∧
    ∀ i r, c.world.run? i = some r → (∀ h, c.held = some h → h.run ≠ i) →
      r.IsStopped ∧ ∀ c', Steps c c' → ∃ q, c'.world.run? i = some q ∧ q.IsStopped := by
  refine ⟨hc.inv.begun, hc.length_tasks, fun o ho => hc.of_operation ho,
    fun config runId hstart h hheld => isFinished_of_start hstart hheld, fun i r hr hleft => ?_⟩
  have hstopped := hc.isStopped_of_left hr hleft
  exact ⟨hstopped, fun c' hsteps => hc.isStopped_of_steps hr hstopped hsteps⟩

/-! A looped user that naps is left behind by the scenario that creates it. -/

/-- A behavior with one task, which sleeps. -/
def nap : Behavior Unit where
  name := "nap"
  taskSet := { tasks := [{ name := "nap", run := fun s => .sleep 60000 (.finish s none) }] }
  create _ := .ok ()
  setUp s := .finish s none
  beforeTask s := .finish s none
  afterTask s := .finish s none
  tearDown s := .finish s none
  word _ _ := 0

/-- A controller of naps. -/
def naps : Controller Unit Empty :=
  (register { commands := builtin, newId := fun _ => "1" } nap
    (some "createloopedusers(amount:1);")).2

/-- Its first run, once the scenario is over. The signal is hardly ever watched. -/
def napping : Controller Unit Empty :=
  (naps.start { behavior := "nap", watchInterval := 3600000 }).2.settle

lemma reachable_napping : napping.Reachable := by
  have hinitial : naps.IsInitial := ⟨rfl, rfl, rfl, rfl, rfl, rfl⟩
  have hstart : (naps.start { behavior := "nap", watchInterval := 3600000 }).2.Reachable :=
    ⟨naps, hinitial, .single (.start _)⟩
  exact hstart.settle

theorem single_run_of_restart :
    (napping.start { behavior := "nap" }).2.Reachable ∧
      ∃ r, (napping.start { behavior := "nap" }).2.world.run? 0 = some r ∧ r.IsStopped ∧
        r.pool.members = [⟨0, .looped, false, true⟩] := by
  have hreachable : (napping.start { behavior := "nap" }).2.Reachable :=
    reachable_napping.steps (.single (.start _))
  have hmembers : ((napping.start { behavior := "nap" }).2.world.run? 0).map (·.pool.members) =
      some [⟨0, .looped, false, true⟩] := by decide +kernel
  have hheld : (napping.start { behavior := "nap" }).2.held.map HeldRun.run = some 1 := by
    decide +kernel
  obtain ⟨r, hr, hr'⟩ := Option.map_eq_some_iff.1 hmembers
  obtain ⟨-, -, -, -, hleft⟩ := hreachable.single_run
  refine ⟨hreachable, r, hr, (hleft 0 r hr fun h hh => ?_).1, hr'⟩
  rw [hh] at hheld
  have : h.run = 1 := Option.some.inj hheld
  omega

/-! ### Asking the held run to stop -/

/-- The run that a stop is about, before and after it. -/
lemma run?_stop (hheld : c.held = some h) (hr : c.world.run? h.run = some r) :
    c.stop.1 = .ok () ∧ c.stop.2.world.run? h.run =
      some (if r.isRaised then r.raise.2 else { r.raise.2 with pool := r.pool.abortAll.2 }) := by
  have hraise := World.raise_eq hr
  have hset : (c.world.setRun h.run r.raise.2).run? h.run = some r.raise.2 := by
    rw [World.run?_setRun hr, if_pos rfl]
  rw [stop]
  simp only [hheld, hraise]
  cases hraised : r.isRaised with
  | true => exact ⟨rfl, hset⟩
  | false =>
    refine ⟨rfl, ?_⟩
    have habort : ∀ w : World σ, w.run? h.run = some r.raise.2 →
        (w.abort h.run).run? h.run = some { r.raise.2 with pool := r.pool.abortAll.2 } := by
      intro w hw
      rw [World.abort_eq hw]
      exact (World.run?_setRun hw).trans (if_pos rfl)
    exact habort _ hset

/-- A stop leaves the held run with a raised signal. It stops the run for good exactly if the signal
had not been raised before, or the pool had already been aborted; otherwise it leaves the users of
the run alone. -/
theorem Reachable.stop_iff (hc : c.Reachable) (hheld : c.held = some h) :
    c.stop.1 = .ok () ∧ ∃ r q, c.world.run? h.run = some r ∧
      c.stop.2.world.run? h.run = some q ∧ q.isRaised = true ∧
      (q.IsStopped ↔ r.isRaised = false ∨ r.pool.aborted = true) ∧
      (¬ q.IsStopped → q.pool = r.pool) ∧
      (q.IsStopped →
        ∀ c', Steps c.stop.2 c' → ∃ t, c'.world.run? h.run = some t ∧ t.IsStopped) := by
  obtain ⟨r, hr⟩ := hc.inv.present h hheld
  obtain ⟨hok, hq⟩ := run?_stop hheld hr
  have hstop : c.stop.2.Reachable := hc.steps (.single .stop)
  refine ⟨hok, r, _, hr, hq, ?_, ?_, ?_, fun hstopped c' hsteps =>
    hstop.isStopped_of_steps hq hstopped hsteps⟩
  · split_ifs <;> exact r.isRaised_raise
  · rw [Run.isStopped_iff (hstop.inv.sound _ _ hq)]
    cases hraised : r.isRaised with
    | true => simp [Run.isRaised_raise, Run.pool_raise]
    | false => simp [Run.isRaised, Run.raise, RunContext.raise, SharedState.raise, Pool.abortAll]
  · cases hraised : r.isRaised with
    | true => exact fun _ => rfl
    | false =>
      intro hnot
      rw [hraised] at hq
      refine absurd ((Run.isStopped_iff (hstop.inv.sound _ _ hq)).2 ⟨rfl, rfl⟩) ?_
      simpa [hraised] using hnot

/-- The first run of the controller of naps, when its signal has been raised. -/
def raisedNap : Controller Unit Empty := { napping with world := (napping.world.raise 0).2 }

/-- A stop leaves a napping user alone, if the signal had been raised before and nobody has looked.
-/
theorem stop_iff_of_raised :
    raisedNap.Reachable ∧ raisedNap.stop.1 = .ok () ∧
      ∃ q, raisedNap.stop.2.world.run? 0 = some q ∧ q.isRaised = true ∧ ¬ q.IsStopped ∧
        q.pool.members = [⟨0, .looped, true, false⟩] := by
  have hreachable : raisedNap.Reachable := reachable_napping.steps (.single (.raise 0))
  have hheld : raisedNap.held = some ⟨"1", "nap", 0, 0, false⟩ := by decide +kernel
  have hbefore : (raisedNap.world.run? 0).map (fun r => (r.isRaised, r.pool.aborted)) =
      some (true, false) := by decide +kernel
  have hmembers : (raisedNap.stop.2.world.run? 0).map (·.pool.members) =
      some [⟨0, .looped, true, false⟩] := by decide +kernel
  obtain ⟨hok, r, q, hr, hq, hraised, hiff, -⟩ := hreachable.stop_iff hheld
  refine ⟨hreachable, hok, q, hq, hraised, fun hstopped => ?_, ?_⟩
  · rw [hr] at hbefore
    have := hiff.1 hstopped
    simp_all
  · rw [hq] at hmembers
    exact Option.some.inj hmembers

end Controller

end LoadTest
