import LoadTest.Proofs.Stopping

/-!
# Runs that are not started

A run is not started while the held one is being carried out, nor if its behavior is unknown, nor if
its scenario does not compile. All of this is found out before anything is done, so that a refusal
leaves everything as it was: who is left of the held run goes on, and its statistics are still
there for whoever asks first.
-/

namespace LoadTest

variable {σ ν : Type}

/-- An operation that has ended need not be waited for. -/
lemma World.await_of_outcome? {w : World σ} {id : Nat} {o : Outcome} (h : w.outcome? id = some o)
    (limit : Millis) : w.await id limit = (some o, w) := by
  have hdone : ∀ fuel, w.stepUntil (fun w => (w.outcome? id).isSome) limit fuel = w := by
    intro fuel
    cases fuel with
    | zero => rfl
    | succ fuel => exact if_pos (Option.isSome_iff_exists.2 ⟨o, h⟩)
  rw [await, hdone]
  simp only [h]

namespace Controller

variable {c : Controller σ ν} {config : RunConfig} {e : ControlError} {h : HeldRun}

/-- No run is being carried out. -/
def IsFree (c : Controller σ ν) : Prop := ∀ h, c.held = some h → c.isFinished h = true

/-- Why a run is not started. -/
inductive Refused (c : Controller σ ν) (config : RunConfig) : ControlError → Prop
  | running {h : HeldRun} (hheld : c.held = some h) (hrunning : c.isFinished h = false) :
      Refused c config .alreadyRunning
  | unknown (hfree : c.IsFree) (hnone : c.find? config.behavior = none) :
      Refused c config (.behavior (.notRegistered config.behavior))
  /-- The scenario is the one that the run asks for, or else that of its behavior. -/
  | uncompiled {b : Registered} {e : CompileError} (hfree : c.IsFree)
      (hfound : c.find? config.behavior = some b)
      (hcompile :
        c.commands.compile (config.override?.getD (b.profile.getD defaultProfile)) = .error e) :
      Refused c config (.compile e)

lemma isFree_iff : c.IsFree ↔ ¬ (c.held.any fun h => !c.isFinished h) = true := by
  rw [IsFree]
  cases c.held <;> simp

lemma not_isFree (hheld : c.held = some h) (hrunning : c.isFinished h = false) : ¬ c.IsFree := by
  intro hfree
  rw [hfree h hheld] at hrunning
  cases hrunning

lemma Refused.start_eq (hrefused : c.Refused config e) : c.start config = (.error e, c) := by
  cases hrefused with
  | running hheld hrunning =>
    rw [start, if_pos (not_not.1 fun hfree => not_isFree hheld hrunning (isFree_iff.2 hfree))]
  | unknown hfree hnone =>
    rw [start, if_neg (isFree_iff.1 hfree), resolve, hnone]
  | uncompiled hfree hfound hcompile =>
    rw [start, if_neg (isFree_iff.1 hfree), resolve, hfound]
    simp only [World.compile, hcompile]

/-- A run has been started: a new one on which its scenario is carried out is held. -/
structure Started (c c' : Controller σ ν) (h : HeldRun) : Prop where
  free : c.IsFree
  held : c'.held = some h
  claimed : h.claimed = false
  run : h.run = c.world.runs.length
  scenario : h.scenario = c.world.nextOperation
  world : ∃ template context units,
    (c.world.opened template context [.scenario units]).Keeps c'.world

/-- A run is refused, or else it is started. -/
lemma refused_or_started (c : Controller σ ν) (config : RunConfig) :
    (∃ e, c.Refused config e) ∨
      ∃ runId h, (c.start config).1 = .ok runId ∧ c.Started (c.start config).2 h := by
  by_cases hfree : c.IsFree
  swap
  · obtain ⟨h, hheld, hrunning⟩ : ∃ h, c.held = some h ∧ c.isFinished h = false := by
      simpa [IsFree] using hfree
    exact .inl ⟨_, .running hheld hrunning⟩
  cases hfound : c.find? config.behavior with
  | none => exact .inl ⟨_, .unknown hfree hfound⟩
  | some b =>
    cases hcompile :
        c.commands.compile (config.override?.getD (b.profile.getD defaultProfile)) with
    | error e => exact .inl ⟨_, .uncompiled hfree hfound hcompile⟩
    | ok units =>
      have hresolve : c.resolve config.behavior = .ok (b, b.profile.getD defaultProfile) := by
        rw [resolve, hfound]
      have hstart := start_eq_ok (isFree_iff.1 hfree) hresolve
        (by rw [World.compile, hcompile])
      set w := c.world.log ⟨.debug, s!"Compiled scenario into {units.size} work unit(s)"⟩
      set context : RunContext :=
        { runId := (c.idFor config).1, watchInterval := config.watchInterval }
      have hopened : (c.world.opened b.template context [.scenario units.toList]).Keeps
          (w.opened b.template context [.scenario units.toList]) :=
        ⟨World.later_of_runs rfl, rfl, rfl, rfl, rfl⟩
      obtain ⟨hkeeps, -⟩ := supersede_spec
        { c with
          world := w.opened b.template context [.scenario units.toList]
          newIds := (c.idFor config).2 }
      refine .inr ⟨_, _, by rw [hstart], hfree, by rw [hstart]; rfl, rfl, rfl, rfl, b.template,
        context, units.toList, ?_⟩
      rw [hstart]
      exact hopened.trans (hkeeps.trans (World.keeps_log _ _ _))

lemma start_eq_error_iff : (c.start config).1 = .error e ↔ c.Refused config e := by
  constructor
  · intro he
    rcases c.refused_or_started config with ⟨e', hrefused⟩ | ⟨runId, h, hok, -⟩
    · rw [hrefused.start_eq] at he
      cases he
      exact hrefused
    · rw [hok] at he
      cases he
  · intro hrefused
    rw [hrefused.start_eq]

/-- A start that changes nothing has been refused: otherwise another run is held. -/
lemma Reachable.refused_of_start_eq (hc : c.Reachable) (heq : (c.start config).2 = c) :
    ∃ e, c.Refused config e := by
  rcases c.refused_or_started config with hrefused | ⟨runId, h, -, hstarted⟩
  · exact hrefused
  · obtain ⟨r, hr⟩ := hc.inv.present h (heq ▸ hstarted.held)
    rw [hstarted.run, World.run?_length] at hr
    cases hr

lemma claim_of_unclaimed (hheld : c.held = some h) (hclaimed : h.claimed = false) :
    c.claim = (.ok h.scenario, { c with held := some { h with claimed := true } }) := by
  rw [claim, hheld]
  exact if_neg (by rw [hclaimed]; exact Bool.false_ne_true)

/-- The statistics of a finished run go to whoever asks first. -/
lemma wait_of_statistics {s : RunStatistics} (hheld : c.held = some h)
    (hclaimed : h.claimed = false)
    (hs : c.world.outcome? h.scenario = some (.statistics s)) (horizon : Millis) :
    (c.wait horizon).1 = .ok (some s) := by
  rw [wait, claim_of_unclaimed hheld hclaimed]
  simp only [World.await_of_outcome? hs]

/-- A start fails exactly if it is refused, which is also exactly if it changes nothing: nobody is
there to act who was not there before, and the held run, its pool, its stop signal and its status
are what they were. Its statistics can be claimed as before. As long as an operation is under way
every start is refused. -/
theorem Reachable.start_refused (hc : c.Reachable) (config : RunConfig) :
    (∀ e, (c.start config).1 = .error e ↔ c.Refused config e) ∧
    ((c.start config).2 = c ↔ ∃ e, c.Refused config e) ∧
    (∀ h, c.held = some h → c.isFinished h = false →
      (c.start config).1 = .error .alreadyRunning) ∧
    (∀ o, .operation o ∈ c.world.actors → (c.start config).1 = .error .alreadyRunning) ∧
    ∀ e, c.Refused config e →
      (c.start config).2.world.actors = c.world.actors ∧
      (c.start config).2.status = c.status ∧
      ∀ h, c.held = some h →
        (c.start config).2.held = some h ∧
        (∃ r, c.world.run? h.run = some r ∧ (c.start config).2.world.run? h.run = some r) ∧
        (h.claimed = false → (c.start config).2.claim.1 = .ok h.scenario ∧
          ∀ s, c.world.outcome? h.scenario = some (.statistics s) →
            ∀ horizon, ((c.start config).2.wait horizon).1 = .ok (some s)) := by
  have hrunning : ∀ h, c.held = some h → c.isFinished h = false →
      (c.start config).1 = .error .alreadyRunning :=
    fun h hheld hrunning => start_eq_error_iff.2 (.running hheld hrunning)
  refine ⟨fun e => start_eq_error_iff, ⟨hc.refused_of_start_eq, ?_⟩, hrunning, ?_, ?_⟩
  · rintro ⟨e, hrefused⟩
    rw [hrefused.start_eq]
  · intro o ho
    obtain ⟨h, hheld, -, -, hunfinished⟩ := hc.of_operation ho
    exact hrunning h hheld hunfinished
  · intro e hrefused
    rw [hrefused.start_eq]
    refine ⟨rfl, rfl, fun h hheld => ⟨hheld, ?_, fun hclaimed => ⟨?_, fun s hs =>
      wait_of_statistics hheld hclaimed hs⟩⟩⟩
    · obtain ⟨r, hr⟩ := hc.inv.present h hheld
      exact ⟨r, hr, hr⟩
    · rw [claim_of_unclaimed hheld hclaimed]

/-- The user that naps is left alone by the start of a run that nobody knows, and the statistics of
its run are still there. -/
theorem start_refused_of_unknown :
    (napping.start { behavior := "run" }).1 = .error (.behavior (.notRegistered "run")) ∧
      (∃ r, (napping.start { behavior := "run" }).2.world.run? 0 = some r ∧
        r.isRaised = false ∧ r.pool.members = [⟨0, .looped, true, false⟩]) ∧
      ((napping.start { behavior := "run" }).2.wait 0).1 =
        .ok (some { created := 1, peak := 1 }) := by
  have hheld : napping.held = some ⟨"1", "nap", 0, 0, false⟩ := by decide +kernel
  have hstatistics : napping.world.outcome? 0 = some (.statistics { created := 1, peak := 1 }) := by
    decide +kernel
  have hmembers : (napping.world.run? 0).map (fun r => (r.isRaised, r.pool.members)) =
      some (false, [⟨0, .looped, true, false⟩]) := by decide +kernel
  have hfree : napping.IsFree := by
    intro h hh
    rw [hheld] at hh
    cases hh
    rw [isFinished_eq reachable_napping.inv, hstatistics]
    rfl
  have hrefused : napping.Refused { behavior := "run" } (.behavior (.notRegistered "run")) :=
    .unknown hfree (by decide +kernel)
  obtain ⟨hiff, -, -, -, hkept⟩ := reachable_napping.start_refused { behavior := "run" }
  obtain ⟨-, -, hleft⟩ := hkept _ hrefused
  obtain ⟨-, ⟨r, hr, hr'⟩, hclaim⟩ := hleft _ hheld
  rw [hr] at hmembers
  obtain ⟨hraised, hmembers⟩ := Prod.mk.inj (Option.some.inj hmembers)
  exact ⟨(hiff _).2 hrefused, ⟨r, hr', hraised, hmembers⟩, (hclaim rfl).2 _ hstatistics 0⟩

end Controller

end LoadTest
