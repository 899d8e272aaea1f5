import LoadTest.Control.Controller
import LoadTest.Proofs.Turns

/-!
# Reachable states of a controller

A controller starts without a run. From there it may be asked anything in any order, between any
steps of its world, and stop signals may be raised at any time. `Reachable` is every state that this
leads to, and `Inv` holds of all of them: no operation is under way but that of the held run, and
every other run has been stopped for good.
-/

namespace LoadTest

variable {σ ν : Type}

namespace World

variable {w v : World σ}

/-- The runs of a world are still there, and have become later ones. -/
def Grows (w v : World σ) : Prop :=
  ∀ i r, w.run? i = some r → ∃ q, v.run? i = some q ∧ r.Later q

lemma Grows.refl (w : World σ) : w.Grows w := fun _ r hr => ⟨r, hr, .refl r⟩

lemma Grows.trans {x : World σ} (hwv : w.Grows v) (hvx : v.Grows x) : w.Grows x := by
  intro i r hr
  obtain ⟨q, hq, hrq⟩ := hwv i r hr
  obtain ⟨t, ht, hqt⟩ := hvx i q hq
  exact ⟨t, ht, hrq.trans hqt⟩

lemma Later.grows (h : w.Later v) : w.Grows v := fun _ _ hr => h.run hr

end World

namespace Controller

/-! ### Histories -/

/-- One thing that happens to a controller. Asking for its status changes nothing, and waiting is
asking for the statistics and then letting the world take its steps. -/
inductive Step : Controller σ ν → Controller σ ν → Prop
  | world {c : Controller σ ν} {w : World σ} (h : World.Step c.world w) :
      Step c { c with world := w }
  | register {c : Controller σ ν} (b : Behavior σ) (profile : Option String) :
      Step c (c.register b profile).2
  | start {c : Controller σ ν} (config : RunConfig) : Step c (c.start config).2
  | stop {c : Controller σ ν} : Step c c.stop.2
  | claim {c : Controller σ ν} : Step c c.claim.2
  | raise {c : Controller σ ν} (run : Nat) : Step c { c with world := (c.world.raise run).2 }

abbrev Steps : Controller σ ν → Controller σ ν → Prop := Relation.ReflTransGen Step

/-- Nothing has been run yet. -/
structure IsInitial (c : Controller σ ν) : Prop where
  held : c.held = none
  runs : c.world.runs = []
  actors : c.world.actors = []
  outcomes : c.world.outcomes = []
  finished : c.world.finished = []
  nextOperation : c.world.nextOperation = 0

/-- The states that a controller comes to. -/
def Reachable (c : Controller σ ν) : Prop := ∃ c₀ : Controller σ ν, c₀.IsInitial ∧ Steps c₀ c

lemma steps_world {c : Controller σ ν} {w : World σ} (h : World.Steps c.world w) :
    Steps c { c with world := w } := by
  induction h with
  | refl => exact .refl
  | tail _ hstep ih => exact ih.tail (.world hstep)

lemma Reachable.steps {c c' : Controller σ ν} (hc : c.Reachable) (h : Steps c c') :
    c'.Reachable := by
  obtain ⟨c₀, hinitial, hsteps⟩ := hc
  exact ⟨c₀, hinitial, hsteps.trans h⟩

lemma Reachable.settle {c : Controller σ ν} (hc : c.Reachable) : c.settle.Reachable :=
  hc.steps (steps_world (World.steps_settle _))

lemma Reachable.pass {c : Controller σ ν} (hc : c.Reachable) (duration : Millis) :
    (c.pass duration).Reachable :=
  hc.steps (steps_world (World.steps_pass _ _))

lemma Reachable.wait {c : Controller σ ν} (hc : c.Reachable) (horizon : Millis) :
    (c.wait horizon).2.Reachable := by
  refine hc.steps (.head .claim ?_)
  rw [Controller.wait]
  split
  next e c' heq =>
    rw [heq]
  next scenario c' heq =>
    rw [heq]
    have hawait := steps_world (World.steps_await c'.world scenario (c'.world.now + horizon))
    simp only
    split <;> exact hawait

end Controller

/-! ### The invariant -/

/-- The held run, if its scenario is still being carried out. -/
def unfinished (held : Option HeldRun) (w : World σ) : Option HeldRun :=
  held.filter fun h => (w.outcome? h.scenario).isNone

/-- What holds of the held run and the world of a controller at all times. -/
structure Inv (held : Option HeldRun) (w : World σ) : Prop where
  /-- In an aborted pool everyone is aborted. -/
  sound : ∀ i r, w.run? i = some r → r.pool.Sound
  /-- The held run is there. -/
  present : ∀ h, held = some h → ∃ r, w.run? h.run = some r
  /-- The other runs have been stopped. -/
  left : ∀ i r, w.run? i = some r → (∀ h, held = some h → h.run ≠ i) →
    r.isRaised = true ∧ r.pool.aborted = true
  /-- No operation is under way but that of the held run. -/
  tasks : w.tasks = (unfinished held w).toList.map fun h => (h.scenario, h.run)
  /-- Every operation that was begun has ended, apart from that of the held run. -/
  begun : ∀ id < w.nextOperation, w.outcome? id = none → ∃ h, held = some h ∧ h.scenario = id
  issued : ∀ h, held = some h → h.scenario < w.nextOperation
  recorded : ∀ p ∈ w.outcomes, p.1 < w.nextOperation
  /-- The operations that are flagged as finished are those that have come to something. -/
  flagged : w.finished = w.outcomes.map Prod.fst

lemma Controller.IsInitial.inv {c : Controller σ ν} (h : c.IsInitial) : Inv c.held c.world := by
  have hnone : ∀ i, c.world.run? i = none := fun i => by simp [World.run?, h.runs]
  constructor
  case sound =>
    intro i r hr
    simp [hnone] at hr
  case present => simp [h.held]
  case left =>
    intro i r hr
    simp [hnone] at hr
  case tasks => simp [World.tasks, unfinished, h.actors, h.held]
  case begun => simp [h.nextOperation]
  case issued => simp [h.held]
  case recorded => simp [h.outcomes]
  case flagged => simp [h.outcomes, h.finished]

namespace Inv

variable {held : Option HeldRun} {w v : World σ}

lemma unfinished_of_outcomes (h : v.outcomes = w.outcomes) :
    unfinished held v = unfinished held w := by
  simp [unfinished, World.outcome?, h]

lemma unfinished_some {h : HeldRun} (hnone : w.outcome? h.scenario = none) :
    unfinished (some h) w = some h :=
  Option.filter_some_pos (by rw [hnone]; rfl)

lemma outcome?_cons {id id' : Nat} {outcome : Outcome}
    (h : v.outcomes = (id, outcome) :: w.outcomes) :
    v.outcome? id' = if id' = id then some outcome else w.outcome? id' := by
  rw [World.outcome?, h, List.lookup_cons, World.outcome?]
  by_cases hid : id' = id
  · simp [hid]
  · simp only [beq_eq_false_iff_ne.2 hid, if_neg hid]

/-- If an operation ends it is that of the held run, and no other is under way. -/
lemma of_ends (hw : Inv held w) {id run : Nat} (h : w.tasks.Perm ((id, run) :: v.tasks)) :
    ∃ h, held = some h ∧ h.scenario = id ∧ v.tasks = [] := by
  rw [hw.tasks] at h
  cases hunfinished : unfinished held w with
  | none =>
    rw [hunfinished] at h
    exact absurd h.length_eq (by simp)
  | some h' =>
    rw [hunfinished] at h
    obtain ⟨heq, htasks⟩ := List.cons.inj (List.singleton_perm.1 h)
    obtain ⟨hheld, -⟩ := Option.filter_eq_some_iff.1 hunfinished
    exact ⟨h', hheld, congrArg Prod.fst heq, htasks.symm⟩

lemma tasks_of_turned (hw : Inv held w) (h : w.Turned v) :
    v.tasks = (unfinished held v).toList.map fun h => (h.scenario, h.run) := by
  cases h.progress with
  | goesOn htasks houtcomes hfinished =>
    rw [unfinished_of_outcomes houtcomes]
    rw [hw.tasks] at htasks
    cases hunfinished : unfinished held w with
    | none =>
      rw [hunfinished] at htasks
      exact List.perm_nil.1 htasks
    | some h =>
      rw [hunfinished] at htasks
      exact List.perm_singleton.1 htasks
  | ends htasks houtcomes hfinished =>
    obtain ⟨h, hheld, hid, hnone⟩ := hw.of_ends htasks
    have hfinished : unfinished held v = none := by
      simp [unfinished, hheld, outcome?_cons houtcomes, hid]
    rw [hfinished, hnone]
    rfl

/-- Turns keep the invariant. -/
lemma turned (hw : Inv held w) (h : w.Turned v) : Inv held v where
  sound i q hq := by
    obtain ⟨r, hr, hlater⟩ := h.later.run' hq
    exact hlater.2.2 (hw.sound i r hr)
  present h' hheld := by
    obtain ⟨r, hr⟩ := hw.present h' hheld
    obtain ⟨q, hq, -⟩ := h.later.run hr
    exact ⟨q, hq⟩
  left i q hq hother := by
    obtain ⟨r, hr, hlater⟩ := h.later.run' hq
    obtain ⟨hraised, haborted⟩ := hw.left i r hr hother
    exact ⟨hlater.1 hraised, hlater.2.1 haborted⟩
  tasks := hw.tasks_of_turned h
  begun id hid hnone := by
    refine hw.begun id (h.nextOperation ▸ hid) ?_
    cases h.progress with
    | goesOn htasks houtcomes hfinished => rwa [World.outcome?, houtcomes] at hnone
    | ends htasks houtcomes hfinished =>
      rw [outcome?_cons houtcomes] at hnone
      split_ifs at hnone
      exact hnone
  issued h' hheld := by
    rw [h.nextOperation]
    exact hw.issued h' hheld
  recorded p hp := by
    rw [h.nextOperation]
    cases h.progress with
    | goesOn htasks houtcomes hfinished => exact hw.recorded p (houtcomes ▸ hp)
    | ends htasks houtcomes hfinished =>
      obtain ⟨h', hheld, hid, -⟩ := hw.of_ends htasks
      rw [houtcomes] at hp
      rcases List.mem_cons.1 hp with rfl | hp
      · exact hid ▸ hw.issued h' hheld
      · exact hw.recorded p hp
  flagged := by
    cases h.progress with
    | goesOn htasks houtcomes hfinished => rw [hfinished, houtcomes, hw.flagged]
    | ends htasks houtcomes hfinished =>
      rw [hfinished, houtcomes, hw.flagged, List.map_cons]

lemma keeps (hw : Inv held w) (h : w.Keeps v) : Inv held v := hw.turned h.turned

lemma turned_of_step (hw : Inv held w) (h : World.Step w v) : w.Turned v := by
  refine h.turned fun task htask => ?_
  rw [hw.tasks] at htask
  obtain ⟨h', hmem, rfl⟩ := List.mem_map.1 htask
  obtain ⟨hheld, -⟩ := Option.filter_eq_some_iff.1 (Option.mem_toList.1 hmem)
  exact hw.present h' hheld

/-- The invariant does not depend on who has asked for the statistics. -/
lemma claim {h : HeldRun} (hw : Inv (some h) w) : Inv (some { h with claimed := true }) w where
  sound := hw.sound
  present := by
    rintro _ ⟨⟩
    exact hw.present h rfl
  left i r hr hother := by
    refine hw.left i r hr ?_
    rintro _ ⟨⟩
    exact hother { h with claimed := true } rfl
  tasks := by
    rw [hw.tasks]
    simp only [unfinished, Option.filter_some]
    split_ifs <;> rfl
  begun id hid hnone := by
    obtain ⟨_, ⟨⟩, hscenario⟩ := hw.begun id hid hnone
    exact ⟨_, rfl, hscenario⟩
  issued := by
    rintro _ ⟨⟩
    exact hw.issued h rfl
  recorded := hw.recorded
  flagged := hw.flagged

/-- An operation is flagged as finished exactly if it has come to something. -/
lemma contains_finished (hw : Inv held w) (id : Nat) :
    w.finished.contains id = (w.outcome? id).isSome := by
  rw [hw.flagged, World.outcome?, Bool.eq_iff_iff, List.contains_iff_mem, List.lookup_isSome_iff,
    List.mem_map]
  constructor
  · rintro ⟨p, hp, rfl⟩
    exact ⟨p, hp, beq_self_eq_true _⟩
  · rintro ⟨p, hp, hid⟩
    exact ⟨p, hp, (eq_of_beq hid).symm⟩

/-- The next operation has not ended yet. -/
lemma outcome?_nextOperation (hw : Inv held w) : w.outcome? w.nextOperation = none := by
  rw [World.outcome?, List.lookup_eq_none_iff]
  intro p hp
  simpa using Nat.ne_of_gt (hw.recorded p hp)

end Inv

/-! ### Starting a run -/

namespace World

variable {w v : World σ} {template : Nat} {context : RunContext} {agenda : List Errand}

/-- The world with a new run, and an operation on it. -/
def opened (w : World σ) (template : Nat) (context : RunContext) (agenda : List Errand) : World σ :=
  ((w.openRun template context).2.submit (w.openRun template context).1 agenda none).2

lemma run?_opened {i : Nat} : (w.opened template context agenda).run? i =
    if i = w.runs.length then some { template, context } else w.run? i :=
  run?_openRun

lemma grows_opened (w : World σ) (template : Nat) (context : RunContext) (agenda : List Errand) :
    w.Grows (w.opened template context agenda) := by
  intro i r hr
  refine ⟨r, ?_, .refl r⟩
  rw [run?_opened, if_neg, hr]
  rintro rfl
  rw [run?_length] at hr
  cases hr

lemma tasks_opened : (w.opened template context agenda).tasks =
    w.tasks ++ [(w.nextOperation, w.runs.length)] := by
  simp [tasks, opened, openRun, submit, List.filterMap_cons, Actor.task?]

/-- Every run that there is later is the new one or comes of one that was there before. -/
lemma Later.of_opened (h : (w.opened template context agenda).Later v) {i : Nat} {q : Run}
    (hq : v.run? i = some q) :
    (i = w.runs.length ∧ q.pool.Sound) ∨ ∃ r, w.run? i = some r ∧ r.Later q := by
  obtain ⟨r, hr, hlater⟩ := h.run' hq
  rw [run?_opened] at hr
  split_ifs at hr with hi
  · cases hr
    exact .inl ⟨hi, hlater.2.2 fun haborted => nomatch haborted⟩
  · exact .inr ⟨r, hr, hlater⟩

end World

/-- A new run may take the place of the held one, once that has finished and been stopped. -/
lemma Inv.opened {held : Option HeldRun} {w v : World σ} (hw : Inv held w)
    (hfinished : unfinished held w = none) {template : Nat} {context : RunContext}
    {agenda : List Errand} (hv : (w.opened template context agenda).Keeps v)
    (hretired : ∀ h, held = some h → ∀ r, v.run? h.run = some r →
      r.isRaised = true ∧ r.pool.aborted = true)
    {h : HeldRun} (hrun : h.run = w.runs.length) (hscenario : h.scenario = w.nextOperation) :
    Inv (some h) v := by
  have hnext : v.nextOperation = w.nextOperation + 1 := hv.nextOperation
  have houtcomes : v.outcomes = w.outcomes := hv.outcomes
  have hnone : v.outcome? w.nextOperation = none := by
    rw [World.outcome?, houtcomes]
    exact hw.outcome?_nextOperation
  constructor
  case sound =>
    intro i q hq
    rcases hv.later.of_opened hq with ⟨-, hsound⟩ | ⟨r, hr, hlater⟩
    · exact hsound
    · exact hlater.2.2 (hw.sound i r hr)
  case present =>
    rintro _ ⟨⟩
    have hr : (w.opened template context agenda).run? h.run = some { template, context } := by
      rw [World.run?_opened, if_pos hrun]
    obtain ⟨q, hq, -⟩ := hv.later.run hr
    exact ⟨q, hq⟩
  case left =>
    intro i q hq hother
    rcases hv.later.of_opened hq with ⟨rfl, -⟩ | ⟨r, hr, hlater⟩
    · exact absurd hrun (hother h rfl)
    · cases held with
      | none =>
        obtain ⟨hraised, haborted⟩ := hw.left i r hr fun _ h => nomatch h
        exact ⟨hlater.1 hraised, hlater.2.1 haborted⟩
      | some h' =>
        by_cases hi : h'.run = i
        · exact hretired h' rfl q (hi ▸ hq)
        · obtain ⟨hraised, haborted⟩ := hw.left i r hr fun _ heq => Option.some.inj heq ▸ hi
          exact ⟨hlater.1 hraised, hlater.2.1 haborted⟩
  case tasks =>
    have htasks : v.tasks = (w.opened template context agenda).tasks :=
      congrArg (List.filterMap Actor.task?) hv.actors
    rw [htasks, World.tasks_opened, hw.tasks, hfinished, Inv.unfinished_some (hscenario ▸ hnone),
      Option.toList_some, List.map_singleton, hscenario, hrun]
    rfl
  case begun =>
    intro id hid hid'
    by_cases hlt : id = w.nextOperation
    · exact ⟨h, rfl, hscenario.trans hlt.symm⟩
    · exfalso
      rw [World.outcome?, houtcomes] at hid'
      obtain ⟨h', rfl, rfl⟩ := hw.begun id (by omega) hid'
      rw [Inv.unfinished_some hid'] at hfinished
      cases hfinished
  case issued =>
    rintro _ ⟨⟩
    omega
  case recorded =>
    intro p hp
    have := hw.recorded p (houtcomes ▸ hp)
    omega
  case flagged => rw [houtcomes, ← hw.flagged, hv.finished]; rfl

namespace World

variable {w : World σ} {i : Nat} {q : Run}

lemma isRaised_of_raise (h : (w.raise i).2.run? i = some q) : q.isRaised = true := by
  obtain ⟨r, hr, -⟩ := (w.keeps_raise i).later.run' h
  rw [raise_eq hr, run?_setRun hr, if_pos rfl] at h
  cases h
  exact r.isRaised_raise

lemma aborted_of_abort (h : (w.abort i).run? i = some q) : q.pool.aborted = true := by
  obtain ⟨r, hr, -⟩ := (w.keeps_abort i).later.run' h
  rw [abort_eq hr] at h
  cases ((run?_setRun hr).trans (if_pos rfl)).symm.trans h
  rfl

lemma keeps_compile {commands : Registry ν} {text : String} {units : Array WorkUnit} {v : World σ}
    (h : w.compile commands text = (.ok units, v)) : w.Keeps v := by
  rw [compile] at h
  split at h
  next =>
    cases h
    exact keeps_log _ _ _
  next => cases h

/-- A run that is stopped and let go of stays stopped. -/
lemma stopped_of_release (h : (((w.raise i).2.abort i).release i).run? i = some q) :
    q.isRaised = true ∧ q.pool.aborted = true := by
  obtain ⟨r, hr, hrq⟩ := (keeps_release ((w.raise i).2.abort i) i).later.run' h
  obtain ⟨t, ht, htr⟩ := (keeps_abort (w.raise i).2 i).later.run' hr
  exact ⟨hrq.1 (htr.1 (isRaised_of_raise ht)), hrq.2.1 (aborted_of_abort hr)⟩

lemma keeps_retire (w : World σ) (i : Nat) : w.Keeps (((w.raise i).2.abort i).release i) :=
  (w.keeps_raise i).trans ((keeps_abort _ i).trans (keeps_release _ i))

end World

namespace Controller

variable {c : Controller σ ν}

lemma retire_spec (c : Controller σ ν) (h : HeldRun) :
    c.world.Keeps (c.retire h).world ∧ (c.retire h).held = c.held ∧
      ∀ q, (c.retire h).world.run? h.run = some q → q.isRaised = true ∧ q.pool.aborted = true := by
  rw [retire]
  cases hr : c.world.run? h.run with
  | none => exact ⟨.refl _, rfl, fun q hq => nomatch hr.symm.trans hq⟩
  | some r =>
    simp only
    split_ifs
    · exact ⟨(World.keeps_log _ _ _).trans (World.keeps_retire _ _), rfl,
        fun q hq => World.stopped_of_release hq⟩
    · exact ⟨World.keeps_retire _ _, rfl, fun q hq => World.stopped_of_release hq⟩

/-- The held run, if there is one, is retired. -/
def supersede (c : Controller σ ν) : Controller σ ν :=
  match c.held with
  | some previous => c.retire previous
  | none => c

lemma supersede_spec (c : Controller σ ν) :
    c.world.Keeps c.supersede.world ∧ ∀ p, c.held = some p → ∀ q,
      c.supersede.world.run? p.run = some q → q.isRaised = true ∧ q.pool.aborted = true := by
  rw [supersede]
  split
  next previous hheld =>
    obtain ⟨hkeeps, -, hstopped⟩ := c.retire_spec previous
    refine ⟨hkeeps, fun p hp => ?_⟩
    cases hheld.symm.trans hp
    exact hstopped
  next hheld => exact ⟨.refl _, fun p hp => nomatch hheld.symm.trans hp⟩

/-- The id of a new run, and how many made-up ids there are with it. -/
def idFor (c : Controller σ ν) (config : RunConfig) : String × Nat :=
  match config.runId with
  | some runId => (runId, c.newIds)
  | none => (c.newId c.newIds, c.newIds + 1)

/-- A new run is opened, and then takes the place of the held one. -/
lemma start_eq_ok {config : RunConfig} {behavior : Registered} {profile : String}
    {units : Array WorkUnit} {w : World σ}
    (hrunning : ¬ (c.held.any fun h => !c.isFinished h) = true)
    (hresolve : c.resolve config.behavior = .ok (behavior, profile))
    (hcompile : c.world.compile c.commands (config.override?.getD profile) = (.ok units, w)) :
    c.start config = (.ok (c.idFor config).1,
      log
        { supersede
            { c with
              world := w.opened behavior.template
                { runId := (c.idFor config).1, watchInterval := config.watchInterval }
                [.scenario units.toList]
              newIds := (c.idFor config).2 } with
          held := some
            { runId := (c.idFor config).1, behavior := behavior.name, run := w.runs.length
              scenario := w.nextOperation } }
        ⟨.info, s!"Started run {(c.idFor config).1}"⟩) := by
  rw [start, if_neg hrunning, hresolve]
  simp only [hcompile]
  rfl

/-- A run is flagged as finished exactly if its scenario has come to something. -/
lemma isFinished_eq (hc : Inv c.held c.world) (h : HeldRun) :
    c.isFinished h = (c.world.outcome? h.scenario).isSome := hc.contains_finished h.scenario

lemma isFinished_eq_false_iff (hc : Inv c.held c.world) (h : HeldRun) :
    c.isFinished h = false ↔ c.world.outcome? h.scenario = none := by
  rw [isFinished_eq hc, Option.isSome_eq_false_iff, Option.isNone_iff_eq_none]

/-- A start either fails and changes nothing, or finds the held run finished, opens a new one in its
place, and retires it. -/
lemma start_spec (hc : Inv c.held c.world) (config : RunConfig) :
    (∃ e, c.start config = (.error e, c)) ∨
      ∃ runId c', c.start config = (.ok runId, c') ∧ unfinished c.held c.world = none ∧
        ∃ w template context agenda h, c.world.Keeps w ∧
          (World.opened w template context agenda).Keeps c'.world ∧ c'.held = some h ∧
          h.run = w.runs.length ∧ h.scenario = w.nextOperation ∧
          ∀ p, c.held = some p → ∀ q, c'.world.run? p.run = some q →
            q.isRaised = true ∧ q.pool.aborted = true := by
  by_cases hrunning : (c.held.any fun h => !c.isFinished h) = true
  · exact .inl ⟨.alreadyRunning, by rw [start, if_pos hrunning]⟩
  cases hresolve : c.resolve config.behavior with
  | error e => exact .inl ⟨.behavior e, by rw [start, if_neg hrunning, hresolve]⟩
  | ok resolved =>
    obtain ⟨behavior, profile⟩ := resolved
    cases hcompile : c.world.compile c.commands (config.override?.getD profile) with
    | mk compiled w =>
      cases compiled with
      | error e =>
        exact .inl ⟨.compile e, by rw [start, if_neg hrunning, hresolve]; simp only [hcompile]⟩
      | ok units =>
        obtain ⟨hkeeps, hstopped⟩ := supersede_spec
          { c with
            world := w.opened behavior.template
              { runId := (c.idFor config).1, watchInterval := config.watchInterval }
              [.scenario units.toList]
            newIds := (c.idFor config).2 }
        refine .inr ⟨_, _, start_eq_ok hrunning hresolve hcompile, ?_, w, _, _, _, _, ?_,
          hkeeps.trans (World.keeps_log _ _ _), rfl, rfl, rfl, hstopped⟩
        · refine Option.filter_eq_none_iff.2 fun h hheld hnone => hrunning ?_
          rw [hheld, Option.any_some,
            (isFinished_eq_false_iff hc h).2 (Option.isNone_iff_eq_none.1 hnone)]
          rfl
        · exact World.keeps_compile hcompile

/-! ### Every step -/

lemma step_stop (c : Controller σ ν) : c.world.Keeps c.stop.2.world ∧ c.stop.2.held = c.held := by
  rw [stop]
  split
  next => exact ⟨World.keeps_log _ _ _, rfl⟩
  next h hheld =>
    have hraise := c.world.keeps_raise h.run
    split
    next w heq =>
      rw [heq] at hraise
      exact ⟨hraise, rfl⟩
    next w heq =>
      rw [heq] at hraise
      exact ⟨hraise.trans ((World.keeps_log _ _ _).trans (World.keeps_abort _ _)), rfl⟩

lemma step_register (c : Controller σ ν) (b : Behavior σ) (profile : Option String) :
    c.world.Keeps (c.register b profile).2.world ∧ (c.register b profile).2.held = c.held := by
  have hcast := c.world.keeps_cast b
  rw [register]
  split
  next e w heq =>
    rw [heq] at hcast
    exact ⟨hcast, rfl⟩
  next template w heq =>
    rw [heq] at hcast
    simp only
    split
    next => exact ⟨hcast, rfl⟩
    next => exact ⟨hcast.trans (World.keeps_log _ _ _), rfl⟩

lemma step_claim (hc : Inv c.held c.world) :
    Inv c.claim.2.held c.claim.2.world ∧ c.claim.2.world = c.world := by
  rw [claim]
  split
  next => exact ⟨hc, rfl⟩
  next h hheld =>
    split_ifs
    · exact ⟨hc, rfl⟩
    · rw [hheld] at hc
      exact ⟨hc.claim, rfl⟩

/-- Whatever happens keeps the invariant, and lets runs become later ones only. -/
theorem Step.inv {c' : Controller σ ν} (h : Step c c') (hc : Inv c.held c.world) :
    Inv c'.held c'.world ∧ c.world.Grows c'.world := by
  cases h with
  | world h =>
    have hturned := hc.turned_of_step h
    exact ⟨hc.turned hturned, hturned.later.grows⟩
  | register b profile =>
    obtain ⟨hkeeps, hheld⟩ := c.step_register b profile
    exact ⟨hheld ▸ hc.keeps hkeeps, hkeeps.later.grows⟩
  | start config =>
    rcases start_spec hc config with ⟨e, he⟩ | ⟨runId, c', hstart, hfinished, w, template, context,
      agenda, h, hw, hc', hheld, hrun, hscenario, hstopped⟩
    · rw [he]
      exact ⟨hc, .refl _⟩
    · rw [hstart, hheld]
      have hfinished' : unfinished c.held w = none := by
        rw [Inv.unfinished_of_outcomes hw.outcomes, hfinished]
      exact ⟨(hc.keeps hw).opened hfinished' hc' hstopped hrun hscenario,
        hw.later.grows.trans ((w.grows_opened template context agenda).trans hc'.later.grows)⟩
  | stop =>
    obtain ⟨hkeeps, hheld⟩ := c.step_stop
    exact ⟨hheld ▸ hc.keeps hkeeps, hkeeps.later.grows⟩
  | claim =>
    obtain ⟨hinv, hworld⟩ := step_claim hc
    exact ⟨hinv, hworld ▸ .refl _⟩
  | raise run =>
    have hkeeps := c.world.keeps_raise run
    exact ⟨hc.keeps hkeeps, hkeeps.later.grows⟩

lemma Steps.inv {c' : Controller σ ν} (h : Steps c c') (hc : Inv c.held c.world) :
    Inv c'.held c'.world ∧ c.world.Grows c'.world := by
  induction h with
  | refl => exact ⟨hc, .refl _⟩
  | tail _ hstep ih =>
    obtain ⟨hinv, hgrows⟩ := hstep.inv ih.1
    exact ⟨hinv, ih.2.trans hgrows⟩

lemma Reachable.inv (hc : c.Reachable) : Inv c.held c.world := by
  obtain ⟨c₀, hinitial, hsteps⟩ := hc
  exact (Steps.inv hsteps hinitial.inv).1

end Controller

end LoadTest
