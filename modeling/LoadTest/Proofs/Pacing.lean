import LoadTest.Proofs.Forecast
import LoadTest.Proofs.Habits
import LoadTest.Proofs.Settling

/-!
# Executions in time

While an operation executes a scenario, everyone else acts as they like, and an alarm may raise
the stop signal. None of that moves the operation off its forecast: whoever else takes a turn leaves
the counts of the run alone, and time passes up to the next instant of the plan or the stop, and not
beyond. Since the others come to rest at every instant, the execution comes to its end.
-/

namespace LoadTest

variable {σ : Type}

/-- Is the actor an operation on the run at a place? -/
def Actor.operates (i : Nat) : Actor σ → Bool
  | .operation o => o.run == i
  | _ => false

namespace World

variable {w v : World σ} {i : Nat} {r : Run} {t : Template σ}

/-! ### What is started -/

/-- The work units that the next step of a world begins with on a run, and when. -/
def begins (w : World σ) (i : Nat) : List (Millis × WorkUnit) :=
  match w.firstReady? w.actors with
  | some (.operation o, _) =>
    if o.run = i then
      match w.run? i with
      | some r => (o.begins w.now r).map fun u => (w.now, u)
      | none => []
    else []
  | _ => []

/-- The work units that are started on a run while a world steps on, and when. -/
def begun (i : Nat) (stop : World σ → Bool) (limit : Millis) :
    (fuel : Nat) → World σ → List (Millis × WorkUnit)
  | 0, _ => []
  | fuel + 1, w =>
    if stop w then []
    else
      match w.next? limit with
      | some v => w.begins i ++ begun i stop limit fuel v
      | none => []

lemma begins_of_settled (h : w.firstReady? w.actors = none) : w.begins i = [] := by
  rw [begins, h]

lemma begins_of_bystander {a : Actor σ} {others : List (Actor σ)}
    (hfirst : w.firstReady? w.actors = some (a, others)) (ha : a.operates i = false) :
    w.begins i = [] := by
  cases a with
  | operation o =>
    have hne : o.run ≠ i := by simpa [Actor.operates] using ha
    rw [begins, hfirst]
    exact if_neg hne
  | _ => rw [begins, hfirst]

lemma begins_of_operation {o : Operation} {others : List (Actor σ)}
    (hfirst : w.firstReady? w.actors = some (.operation o, others)) (hr : w.run? o.run = some r) :
    w.begins o.run = (o.begins w.now r).map fun u => (w.now, u) := by
  rw [begins, hfirst]
  simp only [if_true, hr]

/-! ### Bystanders -/

/-- The turn of a bystander creates nobody, and raises the signal only if it is an alarm. -/
lemma Reachable.run_bystander (hw : w.Reachable) {a : Actor σ} {others : List (Actor σ)}
    (hactors : w.actors.Perm (a :: others)) (hbystander : a.operates i = false)
    (hr : w.run? i = some r) (ht : w.template? r.template = some t) (hquiet : t.NeverRaises) :
    ∃ q, (w.turn a others).run? i = some q ∧ q.created = r.created ∧
      (q.isRaised = r.isRaised ∧ (∀ s, a ≠ .alarm i s) ∨
        q.isRaised = true ∧ ∃ s, a = .alarm i s) := by
  have ha : a ∈ w.actors := hactors.mem_iff.2 (List.mem_cons_self ..)
  by_cases hi : i = a.place
  · subst hi
    cases a with
    | operation o => exact absurd hbystander (by simp [Actor.operates, Actor.place])
    | alarm i due => exact ⟨_, (turn_alarm due others hr).1, rfl, .inr ⟨rfl, due, rfl⟩⟩
    | watch i tick =>
      cases hdropped : r.dropped with
      | true => exact ⟨r, (turn_watch_dropped tick others hr hdropped).1, rfl, .inl ⟨rfl, by simp⟩⟩
      | false =>
        cases hraised : r.isRaised with
        | true =>
          obtain ⟨hrun, -⟩ := turn_watch_raised tick others hr hdropped hraised
          exact ⟨_, hrun, rfl, .inl ⟨hraised, by simp⟩⟩
        | false =>
          obtain ⟨hrun, -⟩ := turn_watch_waits tick others hr hdropped hraised
          exact ⟨r, hrun, rfl, .inl ⟨hraised, by simp⟩⟩
    | user i u =>
      obtain ⟨t', ⟨r', hr', ht'⟩, hof⟩ := hw.isOf ha
      have hplace : w.run? i = some r := hr
      rw [hplace] at hr'
      cases hr'
      rw [ht] at ht'
      cases ht'
      have hdeed := hquiet u hof (w.viewOf r u)
      have hended : u.isEnded = false := (hw.staffed.placed _ ha).1
      cases hlaunched : u.isLaunched with
      | true => exact ⟨_, (turn_launched others hr hlaunched).1, rfl, .inl ⟨rfl, by simp⟩⟩
      | false =>
        cases hends : (w.stepUser r u).isEnded with
        | true =>
          obtain ⟨q, hq, halike, hraised, -⟩ := turn_ends others hr hlaunched hended hends
          obtain ⟨-, shared, rfl⟩ := halike
          exact ⟨_, hq, rfl, .inl ⟨hraised hdeed, by simp⟩⟩
        | false =>
          obtain ⟨q, hq, halike, hraised, -⟩ := turn_goesOn others hr hlaunched hended hends
          obtain ⟨-, shared, rfl⟩ := halike
          exact ⟨_, hq, rfl, .inl ⟨hraised hdeed, by simp⟩⟩
  · obtain ⟨r', hr'⟩ := hw.staffed.exists_run ha
    obtain ⟨new, q, hturn⟩ := hw.staffed.replaces hactors hr'
    refine ⟨r, (hturn.apart.others i hi).trans hr, rfl, .inl ⟨rfl, ?_⟩⟩
    rintro s rfl
    exact hi rfl

/-- What is left of a bystander, or launched by it, is a bystander again. -/
lemma operates_of_bystander {a b : Actor σ} (h : w.Succeeds a b ∨ w.Launches a b)
    (hbystander : a.operates i = false) : b.operates i = false ∧ ∀ s, b ≠ .alarm i s := by
  rcases h with hsucceeds | hlaunches
  · cases hsucceeds with
    | user hr hgoes => exact ⟨rfl, by simp⟩
    | operation hr hgoes =>
      refine ⟨?_, by simp⟩
      rwa [Actor.operates, (Operation.later_step ..).2.2]
    | watch hr hdropped hraised => exact ⟨rfl, by simp⟩
  · cases hlaunches with
    | user lifecycle ticket hr ht => exact ⟨rfl, by simp⟩

/-! ### Passing time -/

/-- If nobody is ready but somebody will be, time passes up to the first instant at which somebody
is, which is still to come. -/
lemma Staffed.exists_next (hw : w.Staffed) (hsettled : w.firstReady? w.actors = none) {a : Actor σ}
    (ha : a ∈ w.actors) {t : Millis} (ht : deadline? a = some t) :
    ∃ next, w.now < next ∧ (∀ b ∈ w.actors, ∀ s, deadline? b = some s → next ≤ s) ∧
      ∀ limit, next ≤ limit → w.next? limit = some { w with now := next } := by
  obtain ⟨next, hnext⟩ : ∃ next, earliest w.actors = some next := by
    refine Option.ne_none_iff_exists'.1 fun hnone => ?_
    have hmem : t ∈ w.actors.filterMap deadline? := List.mem_filterMap.2 ⟨a, ha, ht⟩
    rw [List.min?_eq_none_iff.1 hnone] at hmem
    cases hmem
  obtain ⟨hmem, hfirst⟩ := List.min?_eq_some_iff.1 hnext
  obtain ⟨b, hb, hdeadline⟩ := List.mem_filterMap.1 hmem
  have hlt := hw.lt_deadline hb (not_isReady_of_settled hsettled b hb) hdeadline
  refine ⟨next, hlt, fun b hb s hs => hfirst s (List.mem_filterMap.2 ⟨b, hb, hs⟩),
    fun limit hlimit => ?_⟩
  simp [next?, hsettled, hnext, hlimit, Nat.max_eq_right (Nat.le_of_lt hlt)]

/-! ### Executions under way -/

/-- An operation executes a scenario in a world, with a forecast of what is to come. There is no
other operation on its run, no user raises its signal, and an alarm does so at the instant of the
stop. -/
structure Conducts (w : World σ) (o : Operation) (others : List (Actor σ)) (since : Millis)
    (stopAt : Option Millis) (f : Forecast) : Prop where
  reachable : w.Reachable
  actors : w.actors.Perm (.operation o :: others)
  bystanders : ∀ a ∈ others, a.operates o.run = false
  sleeps : ∀ j t, w.template? j = some t → t.SleepsInCycles
  executes : o.Executes w.now since
  run : ∃ r t, w.run? o.run = some r ∧ w.template? r.template = some t ∧ t.NeverRaises ∧
    o.Expects w.now r stopAt f ∧
      (r.isRaised = false → ∀ s, .alarm o.run s ∈ others ↔ stopAt = some s)

variable {o : Operation} {others : List (Actor σ)} {since : Millis} {stopAt : Option Millis}
  {f : Forecast}

/-- What an execution that began at an instant has come to by its end, according to a forecast. -/
structure Concludes (v : World σ) (id run : Nat) (since : Millis) (f : Forecast) : Prop where
  now : v.now = f.finish
  isHeld : v.isHeld run = false
  outcome : ∃ s : RunStatistics, v.outcome? id = some (.statistics s) ∧
    s.elapsed = f.finish - since ∧ s.created = f.created ∧ s.stopped = f.stopped

/-- The next step of a world in which a scenario is executed. -/
inductive Proceeds (w v : World σ) (o : Operation) (others : List (Actor σ)) (since : Millis)
    (stopAt : Option Millis) (f : Forecast) : Prop
  /-- The execution ends. -/
  | ends (hv : v.Concludes o.id o.run since f) (hbegins : f.starts = w.begins o.run)
  /-- The operation takes a turn. -/
  | acts {o' : Operation} {others' : List (Actor σ)} {f' : Forecast}
      (hv : v.Conducts o' others' since stopAt f') (hid : o'.id = o.id) (hrun : o'.run = o.run)
      (hsize : agendaSize o'.agenda < agendaSize o.agenda)
      (hf : f = { f' with starts := w.begins o.run ++ f'.starts })
  /-- Someone else takes a turn. -/
  | calms {others' : List (Actor σ)} (hv : v.Conducts o others' since stopAt f)
      (hbegins : w.begins o.run = []) (hnow : v.now = w.now) (hcalms : Calms w.now others' others)
  /-- Time passes. -/
  | passes (hv : v.Conducts o others since stopAt f) (hbegins : w.begins o.run = [])
      (hlt : w.now < v.now) (huntil : ∀ now, o.hold.until now = o.hold.until w.now)

namespace Conducts

lemma mem (h : w.Conducts o others since stopAt f) : .operation o ∈ w.actors :=
  h.actors.mem_iff.2 (List.mem_cons_self ..)

lemma isHeld (h : w.Conducts o others since stopAt f) : w.isHeld o.run = true :=
  List.any_eq_true.2 ⟨_, h.mem, by simp⟩

/-- The operation takes its turn. -/
lemma turn_operation (h : w.Conducts o others since stopAt f) {rest : List (Actor σ)}
    (hrest : rest.Perm others) (hready : w.isReady (.operation o) = true)
    (hfirst : w.firstReady? w.actors = some (.operation o, rest)) :
    Proceeds w (w.turn (.operation o) rest) o others since stopAt f := by
  obtain ⟨r, t, hr, ht, hquiet, hexpects, halarm⟩ := h.run
  have hacts : Acts w (w.turn (.operation o) rest) := .turn hfirst
  have hactors : w.actors.Perm (.operation o :: rest) := h.actors.trans (hrest.symm.cons _)
  have hover : o.hold.isOver w.now r = true := by
    simpa [isReady, hr, Operation.isReady, Operation.isLate, h.executes.limit] using hready
  obtain ⟨-, hid, hrun⟩ := o.later_step w.now r
  have hnow : (w.turn (.operation o) rest).now = w.now := now_of_turn
  have hbegins := begins_of_operation hfirst hr
  have hnewcomers : ∀ b ∈ w.newcomers o.run (o.step w.now r).1 (o.step w.now r).2.2,
      b.operates o.run = false ∧ ∀ s, b ≠ .alarm o.run s := by
    intro b hb
    obtain ⟨t', ticket, lifecycle, -, -, rfl⟩ := mem_newcomers hb
    exact ⟨rfl, by simp⟩
  rcases h.executes.step hexpects hover with
    ⟨hended, houtcome, rfl, hnone⟩ | ⟨hended, hexecutes, f', hf', rfl⟩
  · obtain ⟨q, -, -, hafter, houtcomes⟩ := turn_operation_ends rest hr hended
    refine .ends ⟨hnow, ?_, r.statistics (w.now - since), ?_, rfl, rfl, rfl⟩
      (by rw [hbegins, hnone]; rfl)
    · rw [World.isHeld, hafter, List.any_eq_false]
      intro b hb
      have hb' : b.operates o.run = false := (List.mem_append.1 hb).elim
        (fun hb => h.bystanders b (hrest.mem_iff.1 hb)) fun hb => (hnewcomers b hb).1
      rwa [Bool.not_eq_true]
    · rw [outcome?, houtcomes, hid, houtcome, List.lookup_cons_self]
  · obtain ⟨hq, hafter, -⟩ := turn_operation_goesOn rest hr hended
    have hperm : (w.turn (.operation o) rest).actors.Perm (.operation (o.step w.now r).2.1 ::
        (others ++ w.newcomers o.run (o.step w.now r).1 (o.step w.now r).2.2)) := by
      rw [hafter]
      split_ifs
      · exact (hrest.append_right _).cons _
      · exact (List.perm_append_singleton _ _).trans ((hrest.append_right _).cons _)
    have hv : (w.turn (.operation o) rest).Conducts (o.step w.now r).2.1
        (others ++ w.newcomers o.run (o.step w.now r).1 (o.step w.now r).2.2) since stopAt f' :=
      { reachable := h.reachable.acts (.single hacts)
        actors := hperm
        bystanders := by
          intro b hb
          rw [hrun]
          exact (List.mem_append.1 hb).elim (h.bystanders b) fun hb => (hnewcomers b hb).1
        sleeps := fun j t' ht' => h.sleeps j t' (h.reachable.staffed.template_turn hactors j ▸ ht')
        executes := by rw [hnow]; exact hexecutes
        run := by
          rw [hrun, hnow]
          refine ⟨_, t, hq, ?_, hquiet, hf', fun hraised s => ?_⟩
          · rw [h.reachable.staffed.template_turn hactors, (o.remains_step w.now r).template, ht]
          · have hraised' : r.isRaised = false := by
              by_contra hnot
              have := (o.later_step w.now r).1.1 (by simpa using hnot)
              rw [hraised] at this
              cases this
            rw [List.mem_append, halarm hraised' s]
            exact or_iff_left fun hb => (hnewcomers _ hb).2 s rfl }
    exact .acts hv hid hrun (Operation.agendaSize_step_lt hended) (by rw [hbegins])

/-- Someone else takes a turn. -/
lemma turn_bystander (h : w.Conducts o others since stopAt f) {a : Actor σ}
    {rest others' : List (Actor σ)} (ha : others.Perm (a :: others'))
    (hrest : rest.Perm (.operation o :: others')) (hready : w.isReady a = true)
    (hfirst : w.firstReady? w.actors = some (a, rest)) :
    Proceeds w (w.turn a rest) o others since stopAt f := by
  obtain ⟨r, t, hr, ht, hquiet, hexpects, halarm⟩ := h.run
  have hmem : a ∈ others := ha.mem_iff.2 (List.mem_cons_self ..)
  have hbystander := h.bystanders a hmem
  have hactors : w.actors.Perm (a :: rest) :=
    h.actors.trans ((ha.cons _).trans ((List.Perm.swap _ _ _).trans (hrest.symm.cons _)))
  have hmem' : a ∈ w.actors := hactors.mem_iff.2 (List.mem_cons_self ..)
  have hstaffed := h.reachable.staffed
  have hnow : (w.turn a rest).now = w.now := now_of_turn
  obtain ⟨new, hafter, hnew⟩ := (hstaffed.lineup hmem' rest).perm
  obtain ⟨q, hq, hcreated, hraised⟩ := h.reachable.run_bystander hactors hbystander hr ht hquiet
  have hnew' : ∀ b ∈ new, b.operates o.run = false ∧ ∀ s, b ≠ .alarm o.run s := fun b hb =>
    operates_of_bystander (hnew b hb) hbystander
  have hcalms : Calms w.now (new ++ others') others :=
    calms_of_stirs (h.reachable.acc_stirs h.sleeps hmem' w.now) ha (.refl _) fun b hb =>
      (hnew b hb).elim (·.stirs hready) (·.stirs h.sleeps _)
  refine .calms ?_ (begins_of_bystander hfirst hbystander) hnow hcalms
  refine
    { reachable := h.reachable.acts (.single (.turn hfirst))
      actors := hafter.trans ((hrest.append_left _).trans List.perm_middle)
      bystanders := ?_
      sleeps := fun j t' ht' => h.sleeps j t' (hstaffed.template_turn hactors j ▸ ht')
      executes := by rw [hnow]; exact h.executes
      run := ⟨q, t, hq, ?_, hquiet, ?_, fun hunraised s => ?_⟩ }
  · intro b hb
    rcases List.mem_append.1 hb with hb | hb
    · exact (hnew' b hb).1
    · exact h.bystanders b (ha.mem_iff.2 (List.mem_cons_of_mem _ hb))
  · obtain ⟨q', hq', -, hremains⟩ := hstaffed.run_turn hactors hr
    rw [hq] at hq'
    cases hq'
    rw [hstaffed.template_turn hactors, hremains.template, ht]
  · rw [hnow]
    rcases hraised with ⟨hraised, -⟩ | ⟨hraised, s, rfl⟩
    · exact hexpects.of_run hraised hcreated
    · cases hunraised : r.isRaised with
      | true => exact hexpects.of_run (hraised.trans hunraised.symm) hcreated
      | false =>
        -- The alarm rings at its instant, which is the one of the stop.
        have hs := (halarm hunraised s).1 hmem
        have hle : s ≤ w.now := by simpa [isReady] using hready
        obtain ⟨hge, -⟩ := (hexpects.onTime_of_isRaised hunraised).1 s hs
        have hnow' : s = w.now := Nat.le_antisymm hle hge
        subst hs
        subst hnow'
        exact h.executes.stopped hunraised hexpects hraised hcreated
  · rcases hraised with ⟨hraised, hother⟩ | ⟨hraised, -⟩
    · rw [← halarm (hraised ▸ hunraised) s, ha.mem_iff, List.mem_append, List.mem_cons]
      have hnone : .alarm o.run s ∉ new := fun hb => (hnew' _ hb).2 s rfl
      simp [Ne.symm (hother s), hnone]
    · rw [hraised] at hunraised
      cases hunraised

/-- If nobody is ready, the operation pauses, and its signal is not raised. -/
lemma pause_of_settled (h : w.Conducts o others since stopAt f)
    (hsettled : w.firstReady? w.actors = none) :
    ∃ t, o.hold = .pause t ∧ (∃ r, w.run? o.run = some r ∧ r.isRaised = false) := by
  obtain ⟨r, t, hr, -⟩ := h.run
  have hover := isOver_of_settled hsettled h.mem hr
  have hkeeps := h.executes.hold
  cases hhold : o.hold with
  | free =>
    rw [hhold] at hover
    cases hover
  | arrivals first amount =>
    simp [hhold, Hold.isOver, Run.haveArrived,
      h.reachable.staffed.arriving_of_settled hr hsettled] at hover
  | pause t =>
    rw [hhold, Hold.isOver, Bool.or_eq_false_iff] at hover
    exact ⟨t, rfl, r, hr, hover.2⟩
  | clock t =>
    rw [hhold] at hkeeps
    exact absurd hkeeps not_false
  | empty =>
    rw [hhold] at hkeeps
    exact absurd hkeeps not_false

/-- Nobody is ready, and time passes. -/
lemma idle (h : w.Conducts o others since stopAt f) (hsettled : w.firstReady? w.actors = none) :
    ∃ v, (∀ limit, f.finish ≤ limit → w.next? limit = some v) ∧
      Proceeds w v o others since stopAt f := by
  obtain ⟨wakeAt, hhold, r, hr, hraised⟩ := h.pause_of_settled hsettled
  obtain ⟨r', t, hr', ht, hquiet, hexpects, halarm⟩ := h.run
  rw [hr] at hr'
  cases hr'
  obtain ⟨hevades, hf⟩ := hexpects.onTime_of_isRaised hraised
  have hwake : deadline? (.operation o : Actor σ) = some wakeAt := by
    simp [deadline?, hhold, Hold.deadline?, h.executes.limit, List.reduceOption]
  obtain ⟨next, hlt, hdue, hnext⟩ := h.reachable.staffed.exists_next hsettled h.mem hwake
  have hle : next ≤ wakeAt := hdue _ h.mem _ hwake
  have hstop : ∀ s, stopAt = some s → next ≤ s := fun s hs =>
    hdue _ (h.actors.mem_iff.2 (List.mem_cons_of_mem _ ((halarm hraised s).2 hs))) s rfl
  have huntil : ∀ now, o.hold.until now = wakeAt := fun now => by rw [hhold]; rfl
  have hplan : ∀ now, o.plan now = o.plan w.now := fun now => by
    rw [Operation.plan, huntil, Operation.plan, huntil]
  have hfinish : next ≤ f.finish := by
    have hplanned : next ≤ (o.plan w.now).finish := by
      rw [Operation.plan, huntil]
      exact Nat.le_trans hle (notBefore_agendaPlan _ _).finish
    rw [hf, Plan.forecast]
    cases stopAt with
    | none => exact hplanned
    | some s => exact Nat.le_min.2 ⟨hplanned, hstop s rfl⟩
  refine ⟨{ w with now := next }, fun limit hlimit => hnext limit (Nat.le_trans hfinish hlimit),
    .passes ?_ (begins_of_settled hsettled) hlt fun now => (huntil now).trans (huntil _).symm⟩
  exact
    { reachable := .step h.reachable (.wait (Nat.le_of_lt hlt))
      actors := h.actors
      bystanders := h.bystanders
      sleeps := h.sleeps
      executes :=
        { limit := h.executes.limit
          keeps := h.executes.keeps
          hold := by rw [hhold]; exact hle
          counts := h.executes.counts
          closes := by
            refine h.executes.closes.imp_right ?_
            rintro ⟨work, -, hfree, -⟩
            rw [hhold] at hfree
            cases hfree }
      run := by
        refine ⟨r, t, hr, ht, hquiet, ?_, halarm⟩
        rw [hf, ← hplan next]
        refine .onTime hraised fun s hs => ⟨hstop s hs, ?_⟩
        rw [hplan]
        exact (hevades s hs).2 }

/-- The next step of a world keeps to the forecast, unless the world is not to run that far. -/
theorem proceeds (h : w.Conducts o others since stopAt f) :
    ∃ v, (∀ limit, f.finish ≤ limit → w.next? limit = some v) ∧
      Proceeds w v o others since stopAt f := by
  cases hfirst : w.firstReady? w.actors with
  | none => exact h.idle hfirst
  | some next =>
    obtain ⟨a, rest⟩ := next
    refine ⟨w.turn a rest, fun limit _ => by rw [next?, hfirst], ?_⟩
    obtain ⟨before, after, hactors, rfl, hready⟩ := firstReady?_eq_some hfirst
    have hperm' := h.actors
    have hperm : (a :: (before ++ after)).Perm (.operation o :: others) := by
      rw [hactors] at hperm'
      exact List.perm_middle.symm.trans hperm'
    rcases List.mem_cons.1 (hperm.mem_iff.1 (List.mem_cons_self ..)) with rfl | ha
    · exact h.turn_operation hperm.cons_inv hready hfirst
    · obtain ⟨front, back, rfl⟩ := List.append_of_mem ha
      have hothers : (front ++ a :: back).Perm (a :: (front ++ back)) := List.perm_middle
      refine h.turn_bystander hothers ?_ hready hfirst
      exact (hperm.trans ((hothers.cons _).trans (List.Perm.swap _ _ _))).cons_inv

end Conducts

/-! ### Whole executions -/

/-- A world steps on until the execution has come to what was foreseen. -/
def Completes (w : World σ) (id run : Nat) (since : Millis) (f : Forecast) : Prop :=
  ∃ n, ∀ fuel, n ≤ fuel → ∀ limit, f.finish ≤ limit →
    (stepUntil (fun v => !v.isHeld run) limit fuel w).Concludes id run since f ∧
      begun run (fun v => !v.isHeld run) limit fuel w = f.starts

lemma Concludes.completes {id run : Nat} (h : w.Concludes id run since f)
    (hstarts : f.starts = []) : w.Completes id run since f := by
  refine ⟨0, fun fuel _ limit _ => ?_⟩
  have hstop : (!w.isHeld run) = true := by rw [h.isHeld]; rfl
  cases fuel with
  | zero => exact ⟨h, hstarts.symm⟩
  | succ fuel =>
    rw [stepUntil, if_pos hstop, begun, if_pos hstop]
    exact ⟨h, hstarts.symm⟩

/-- One more step comes before. -/
lemma Completes.of_next {id run : Nat} {f' : Forecast} (hv : v.Completes id run since f')
    (hheld : w.isHeld run = true) (hnext : ∀ limit, f.finish ≤ limit → w.next? limit = some v)
    (hf : f = { f' with starts := w.begins run ++ f'.starts }) : w.Completes id run since f := by
  obtain ⟨n, hn⟩ := hv
  refine ⟨n + 1, fun fuel hfuel limit hlimit => ?_⟩
  obtain ⟨fuel, rfl⟩ := Nat.exists_eq_add_of_le' (Nat.le_trans (Nat.le_add_left 1 n) hfuel)
  have hfinish : f'.finish ≤ limit := by rwa [hf] at hlimit
  obtain ⟨hconcludes, hbegun⟩ := hn fuel (Nat.le_of_succ_le_succ hfuel) limit hfinish
  have hgoes : (!w.isHeld run) = false := by rw [hheld]; rfl
  rw [stepUntil, begun, if_neg (by simp [hheld]), if_neg (by simp [hheld]), hnext limit hlimit]
  simp only [hbegun]
  subst hf
  exact ⟨⟨hconcludes.now, hconcludes.isHeld, hconcludes.outcome⟩, rfl⟩

/-- Whatever the others do, an execution comes to what was foreseen. -/
theorem Conducts.completes (h : w.Conducts o others since stopAt f) :
    w.Completes o.id o.run since f := by
  -- The operation comes closer to its end by its own turns, to the end of its pause as time passes,
  -- and in between the others calm down.
  induction hsize : agendaSize o.agenda using Nat.strongRecOn generalizing w o others f with
  | ind size ihsize =>
    induction hleft : o.hold.until w.now - w.now using Nat.strongRecOn generalizing w others f with
    | ind left ihleft =>
      have hacc : Acc (Calms w.now) others := acc_calms fun a ha =>
        h.reachable.acc_stirs h.sleeps (h.actors.mem_iff.2 (List.mem_cons_of_mem _ ha)) w.now
      generalize hnow : w.now = now at hacc
      induction hacc generalizing w f with
      | intro others _ ihcalms =>
        obtain ⟨v, hnext, hproceeds⟩ := h.proceeds
        cases hproceeds with
        | ends hv hbegins =>
          have hv' : v.Completes o.id o.run since { f with starts := [] } :=
            Concludes.completes ⟨hv.now, hv.isHeld, hv.outcome⟩ rfl
          exact hv'.of_next h.isHeld hnext (by rw [List.append_nil, ← hbegins])
        | acts hv hid hrun hlt hf =>
          have hv' := ihsize _ (hsize ▸ hlt) hv rfl
          rw [hid, hrun] at hv'
          exact hv'.of_next h.isHeld hnext hf
        | calms hv hbegins hnow' hcalms =>
          have hv' := ihcalms _ (hnow ▸ hcalms) hv (by rw [hnow', hleft]) (hnow'.trans hnow)
          exact hv'.of_next h.isHeld hnext (by rw [hbegins, List.nil_append])
        | passes hv hbegins hlt huntil =>
          have hle := hv.executes.hold.le_until
          rw [huntil] at hle
          have hv' := ihleft _ (by
            rw [← hleft, huntil]
            exact Nat.sub_lt_sub_left (Nat.lt_of_lt_of_le hlt hle) hlt) hv rfl
          exact hv'.of_next h.isHeld hnext (by rw [hbegins, List.nil_append])

/-- Have work units carried out on a run from now on, and its stop signal raised at an instant, if
one is given. -/
def execute (w : World σ) (i : Nat) (units : List WorkUnit) (stopAt : Option Millis) : World σ :=
  ((stopAt.elim w (w.raiseAt i)).submit i [.scenario units] none).2

lemma conducts_execute (hw : w.Reachable) (hr : w.run? i = some r) (hraised : r.isRaised = false)
    (hheld : w.isHeld i = false) (halarms : ∀ s, .alarm i s ∉ w.actors)
    (hsleeps : ∀ j t, w.template? j = some t → t.SleepsInCycles)
    (hquiet : ∀ t, w.template? r.template = some t → t.NeverRaises) {units : List WorkUnit}
    (hunits : ∀ u ∈ units, u.KeepsTime) (hstop : (workPlan w.now units).Evades w.now stopAt) :
    (w.execute i units stopAt).Conducts
      { id := w.nextOperation, run := i, agenda := [.scenario units] }
      (stopAt.elim w.actors fun s => .alarm i s :: w.actors) w.now stopAt
      ((workPlan w.now units).forecast stopAt r.created) := by
  obtain ⟨t, ht⟩ := Option.isSome_iff_exists.1 (hw.staffed.template i r hr)
  have hsome : (w.run? i).isSome := by rw [hr]; rfl
  have hagenda : ∀ e ∈ [Errand.scenario units], e.isCount = false := by simp [Errand.isCount]
  have hbystanders : ∀ a ∈ w.actors, a.operates i = false := fun a ha =>
    Bool.eq_false_iff.2 (List.any_eq_false.1 hheld a ha)
  have hexecutes : Operation.Executes
      { id := w.nextOperation, run := i, agenda := [.scenario units] } w.now w.now :=
    { limit := rfl
      keeps := by simpa [Errand.KeepsTime] using hunits
      hold := trivial
      counts := Operation.countsArrivals_of_hold rfl hagenda
      closes := .inr ⟨units, rfl, rfl, rfl⟩ }
  have hplan : Operation.plan
      { id := w.nextOperation, run := i, agenda := [.scenario units] } w.now =
        workPlan w.now units :=
    agendaPlan_singleton _ _
  have hexpects : Operation.Expects
      { id := w.nextOperation, run := i, agenda := [.scenario units] } w.now r stopAt
      ((workPlan w.now units).forecast stopAt r.created) := by
    rw [← hplan] at hstop ⊢
    exact .onTime hraised hstop
  cases stopAt with
  | none =>
    exact
      { reachable := .call hw (.submit none hsome hagenda)
        actors := List.perm_append_singleton _ _
        bystanders := hbystanders
        sleeps := hsleeps
        executes := hexecutes
        run := ⟨r, t, hr, ht, hquiet t ht, hexpects, fun _ s => by simpa using halarms s⟩ }
  | some s =>
    have hraiseAt : (w.raiseAt i s).Reachable := .call hw (.raiseAt s hsome)
    exact
      { reachable := .call hraiseAt (.submit none hsome hagenda)
        actors := List.perm_append_singleton _ _
        bystanders := List.forall_mem_cons.2 ⟨rfl, hbystanders⟩
        sleeps := hsleeps
        executes := hexecutes
        run := ⟨r, t, hr, ht, hquiet t ht, hexpects, fun _ s' => by simp [halarms s', eq_comm]⟩ }

/-- Work units none of which waits for users are carried out on a run that nobody else holds, and
its signal is raised by nobody but an alarm at most, at an instant that is none of those of the
plan. If all templates sleep in their cycles, then whatever the users do, and whatever happens on
other runs, the units are started one after another as the timetable says, up to the alarm; the
execution ends with statistics, once all units have taken their time or at the alarm; by then so
many users have been created as the plan says, up to the alarm; and the run has been stopped exactly
if the alarm comes before the end of the plan. -/
theorem Reachable.execute_in_time (hw : w.Reachable) (hr : w.run? i = some r)
    (hraised : r.isRaised = false) (hheld : w.isHeld i = false)
    (halarms : ∀ s, .alarm i s ∉ w.actors)
    (hsleeps : ∀ j t, w.template? j = some t → t.SleepsInCycles)
    (hquiet : ∀ t, w.template? r.template = some t → t.NeverRaises) {units : List WorkUnit}
    (hunits : ∀ u ∈ units, u.KeepsTime) {stopAt : Option Millis}
    (hstop : ∀ s, stopAt = some s → w.now < s ∧ s ∉ (workPlan w.now units).instants) :
    let stop := fun v : World σ => !v.isHeld i
    let elapsed := stopAt.elim (totalDuration units) fun s => min (totalDuration units) (s - w.now)
    ∃ n, ∀ fuel, n ≤ fuel → ∀ limit, w.now + elapsed ≤ limit →
      let v := stepUntil stop limit fuel (w.execute i units stopAt)
      v.now = w.now + elapsed ∧
      begun i stop limit fuel (w.execute i units stopAt) =
        (timetable w.now units).filter (fun s => isBefore stopAt s.1) ∧
      ∃ s : RunStatistics, v.outcome? w.nextOperation = some (.statistics s) ∧ s.elapsed = elapsed ∧
        s.created = r.created + (workPlan w.now units).creations.countP (isBefore stopAt) ∧
        (s.stopped = true ↔ ∃ due, stopAt = some due ∧ due < w.now + totalDuration units) := by
  intro stop elapsed
  have hevades : (workPlan w.now units).Evades w.now stopAt := fun s hs =>
    ⟨Nat.le_of_lt (hstop s hs).1, (hstop s hs).2⟩
  have hfinish : ((workPlan w.now units).forecast stopAt r.created).finish = w.now + elapsed := by
    cases stopAt with
    | none => rfl
    | some s =>
      have hs := (hstop s rfl).1
      show min (w.now + totalDuration units) s = w.now + min (totalDuration units) (s - w.now)
      rw [← Nat.add_min_add_left, Nat.add_sub_cancel' (Nat.le_of_lt hs)]
  obtain ⟨n, hn⟩ :=
    (conducts_execute hw hr hraised hheld halarms hsleeps hquiet hunits hevades).completes
  refine ⟨n, fun fuel hfuel limit hlimit => ?_⟩
  obtain ⟨⟨hnow, -, s, hs, helapsed, hcreated, hstopped⟩, hbegun⟩ :=
    hn fuel hfuel limit (hfinish ▸ hlimit)
  rw [hfinish] at hnow helapsed
  refine ⟨hnow, hbegun, s, hs, ?_, hcreated, ?_⟩
  · rw [helapsed, Nat.add_sub_cancel_left]
  · rw [hstopped]
    cases stopAt with
    | none => simp [Plan.forecast, isBefore]
    | some due =>
      have hne : w.now + totalDuration units ≠ due := fun heq =>
        (hstop due rfl).2 (by simp [Plan.instants, workPlan, heq])
      show (!decide (w.now + totalDuration units < due)) = true ↔ _
      rw [Bool.not_eq_true', decide_eq_false_iff_not, Nat.not_lt]
      constructor
      · intro hle
        exact ⟨due, rfl, Nat.lt_of_le_of_ne hle (Ne.symm hne)⟩
      · rintro ⟨_, ⟨⟩, hlt⟩
        exact Nat.le_of_lt hlt

/-! Two looped naps that begin at once and three others one second apart, with the signal raised a
minute and a half second later. -/

/-- A run of naps whose signal is looked at every second. -/
def napsWatched : World Unit := (napBase.openRun 0 { runId := "1", watchInterval := 1000 }).2

lemma template_napsWatched {j : Nat} {t : Template Unit} (h : napsWatched.template? j = some t) :
    t.toBehavior = Controller.nap := by
  cases j with
  | zero =>
    have hnap : (napsWatched.template? 0).map Template.toBehavior = some Controller.nap := rfl
    rw [h] at hnap
    exact Option.some.inj hnap
  | succ j => cases h

lemma sleepsInCycles_of_nap {t : Template Unit} (h : t.toBehavior = Controller.nap) :
    t.SleepsInCycles := by
  refine Template.sleepsInCycles_of_tasks fun task htask => .inr fun state => ?_
  rw [h] at htask
  rw [List.mem_singleton.1 htask]
  exact .inl (by decide)

lemma neverRaises_of_nap {t : Template Unit} (h : t.toBehavior = Controller.nap) :
    t.NeverRaises := by
  refine Template.neverRaises_of_callbacks ?_
  rw [h]
  refine ⟨fun _ => trivial, fun _ => trivial, fun _ => trivial, fun _ => trivial,
    fun task htask => ?_, fun hook hhook => absurd hhook List.not_mem_nil⟩
  rw [List.mem_singleton.1 htask]
  exact fun _ => trivial

theorem naps_in_time :
    let units : List WorkUnit :=
      [.create 2 .looped none, .create 3 .regular (some 3000), .delay 100000]
    ∃ n, ∀ fuel, n ≤ fuel → ∀ limit, 60500 ≤ limit →
      let v :=
        stepUntil (fun v => !v.isHeld 0) limit fuel (napsWatched.execute 0 units (some 60500))
      v.now = 60500 ∧
      begun 0 (fun v => !v.isHeld 0) limit fuel (napsWatched.execute 0 units (some 60500)) =
        [(0, .create 2 .looped none), (0, .create 3 .regular (some 3000)), (3000, .delay 100000)] ∧
      ∃ s : RunStatistics, v.outcome? 0 = some (.statistics s) ∧ s.elapsed = 60500 ∧ s.created = 5 ∧
        s.stopped = true := by
  intro units
  have hw : napsWatched.Reachable :=
    .call (.call (.empty rfl rfl) (.cast Controller.nap)) (.openRun _ (by decide +kernel))
  have hactors : napsWatched.actors = [.watch 0 0] := rfl
  have hunits : ∀ u ∈ units, u.KeepsTime := by simp [units, WorkUnit.KeepsTime]
  have hstop : ∀ s, some 60500 = some s →
      napsWatched.now < s ∧ s ∉ (workPlan 0 units).instants := by
    rintro _ ⟨⟩
    decide +kernel
  have hfinish : 0 + min (totalDuration units) (60500 - 0) = 60500 := by decide +kernel
  obtain ⟨n, hn⟩ := hw.execute_in_time (i := 0) rfl rfl rfl (by simp [hactors])
    (fun _ _ h => sleepsInCycles_of_nap (template_napsWatched h))
    (fun _ h => neverRaises_of_nap (template_napsWatched h)) hunits hstop
  refine ⟨n, fun fuel hfuel limit hlimit => ?_⟩
  obtain ⟨hnow, hbegun, s, hs, helapsed, hcreated, hstopped⟩ :=
    hn fuel hfuel limit (Nat.le_trans (Nat.le_of_eq hfinish) hlimit)
  refine ⟨hnow.trans hfinish, hbegun.trans (by decide +kernel), s, hs,
    helapsed.trans (by decide +kernel),
    hcreated.trans (by decide +kernel), hstopped.2 ⟨60500, rfl, by decide +kernel⟩⟩

/-- A delay of thirty years and a second is cut short. -/
theorem long_delay_ends_early :
    let w := (napBase.openRun 0 { runId := "1", watchInterval := 1000000000000000 }).2
    ∃ s, (stepUntil (fun v => !v.isHeld 0) 2000000000000 100
        (w.execute 0 [.delay 946080001000] none)).outcome? 0 = some (.statistics s) ∧
      s.elapsed ≠ 946080001000 :=
  ⟨{ elapsed := 946080000000 }, by decide +kernel⟩

end World

end LoadTest
