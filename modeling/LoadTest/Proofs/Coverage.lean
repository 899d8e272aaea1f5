import LoadTest.Proofs.Audit
import LoadTest.Proofs.Reachable
import LoadTest.World.Session

/-!
# What audits cover

A session plays its callbacks outside of all runs, and a controller asks of its world only what an
audit knows. So both of them can be audited: whatever they do, something is written down that agrees
with what has been counted.
-/

namespace LoadTest

variable {σ ν : Type}

namespace World

variable {w v : World σ} {xs ys : List (Visitor σ)} {es : List Incident}

/-! ### Sessions -/

/-- The world with the clock and the recordings of a bench. -/
def ofBench (w : World σ) (b : Bench) : World σ := { w with now := b.now, recorder := b.recorder }

/-- Something happens outside of all runs, whatever has been written down before. -/
def Excursion (w : World σ) (xs : List (Visitor σ)) (v : World σ) (ys : List (Visitor σ)) : Prop :=
  ∀ es, Audit w xs es → ∃ es', (∀ e ∈ es', e.source = none) ∧ Audit v ys (es ++ es')

namespace Excursion

variable {x : World σ} {zs : List (Visitor σ)}

lemma refl (w : World σ) (xs : List (Visitor σ)) : Excursion w xs w xs := fun es h =>
  ⟨[], by simp, by rwa [List.append_nil]⟩

lemma trans (hwv : Excursion w xs v ys) (hvx : Excursion v ys x zs) : Excursion w xs x zs := by
  intro es h
  obtain ⟨es₁, hes₁, h₁⟩ := hwv es h
  obtain ⟨es₂, hes₂, h₂⟩ := hvx _ h₁
  refine ⟨es₁ ++ es₂, fun e he => (List.mem_append.1 he).elim (hes₁ e) (hes₂ e), ?_⟩
  rwa [← List.append_assoc]

lemma visit {y : Visitor σ} (hawake : ∀ t, y.activation.wakeAt = some t → t ≤ w.now) :
    Excursion w (y :: xs) (w.visit y) (y.rest w.now ++ xs) := by
  intro es h
  refine ⟨_, fun e he => ?_, @Audit.visit _ _ _ _ h _ [] _ rfl hawake⟩
  obtain ⟨m, -, rfl⟩ := List.mem_map.1 he
  rfl

lemma wait {now : Millis} (hnow : w.now ≤ now) : Excursion w xs { w with now } xs := fun es h =>
  ⟨[], by simp, by rw [List.append_nil]; exact h.wait hnow⟩

end Excursion

section Play

variable (behavior : String) (number : Nat)

/-- The next action of a routine in progress is taken outside of all runs. -/
lemma excursion_action (w : World σ) (b : Bench) (xs : List (Visitor σ)) (a : Activation σ)
    (ha : a.wakeAt = none) {v : World σ} {ys : List (Visitor σ)}
    (hv : (w.ofBench b).visit ⟨behavior, number, a⟩ = v)
    (hys : (⟨behavior, number, a⟩ : Visitor σ).rest b.now = ys) :
    Excursion (w.ofBench b) (⟨behavior, number, a⟩ :: xs) v (ys ++ xs) := by
  subst hv hys
  refine .visit fun t ht => ?_
  rw [ha] at ht
  cases ht

/-- What is left of a routine when it has been played, within the same transactions as before. -/
def afterPlay (opened : List (OpenTransaction σ)) : Played σ → List (Visitor σ)
  | some (state, failure) => [⟨behavior, number, { routine := .finish state failure, opened }⟩]
  | none => []

lemma excursion_play (w : World σ) (xs : List (Visitor σ)) (r : Routine σ)
    (opened : List (OpenTransaction σ)) (b : Bench) :
    Excursion (w.ofBench b) (⟨behavior, number, { routine := r, opened }⟩ :: xs)
      (w.ofBench (r.play behavior number b).2)
      (afterPlay behavior number opened (r.play behavior number b).1 ++ xs) := by
  induction r generalizing opened b with
  | finish state failure => exact .refl _ _
  | panic reason => exact excursion_action behavior number w b xs _ rfl rfl rfl
  | sleep d next ih =>
    cases d with
    | zero => exact (excursion_action behavior number w b xs _ rfl rfl rfl).trans (ih opened b)
    | succ d =>
      have hsleeps := excursion_action behavior number w b xs
        { routine := .sleep (d + 1) next, opened } rfl rfl rfl
      -- The clock moves on to the end of the sleep, at which the routine wakes up.
      have hwakes : Excursion (w.ofBench { b with now := wakeTime b.now (d + 1) })
          (⟨behavior, number, { routine := next, opened, wakeAt := some (wakeTime b.now (d + 1)) }⟩
            :: xs) (w.ofBench { b with now := wakeTime b.now (d + 1) })
          (⟨behavior, number, { routine := next, opened }⟩ :: xs) :=
        .visit fun t ht => Nat.le_of_eq (Option.some.inj ht).symm
      refine ((hsleeps.trans (.wait (le_wakeTime b.now (d + 1)))).trans hwakes).trans ?_
      exact ih opened _
  | record label next ih =>
    refine Excursion.trans ?_ (ih opened _)
    exact excursion_action behavior number w b xs _ rfl rfl rfl
  | look next ih =>
    exact (excursion_action behavior number w b xs _ rfl rfl rfl).trans (ih none opened b)
  | raise next ih =>
    exact (excursion_action behavior number w b xs _ rfl rfl rfl).trans (ih none opened b)
  | transact labels body next ihbody ihnext =>
    have hbody := Excursion.trans (excursion_action behavior number w b xs
      { routine := .transact labels body next, opened } rfl rfl rfl)
      (ihbody (⟨labels, b.now, next⟩ :: opened) b)
    rw [Routine.play]
    cases hplayed : body.play behavior number b with
    | mk played b' =>
      rw [hplayed] at hbody
      cases played with
      | none => exact hbody
      | some result =>
        obtain ⟨state, failure⟩ := result
        refine (hbody.trans ?_).trans (ihnext state failure opened _)
        exact excursion_action behavior number w b' xs _ rfl rfl rfl

/-- A session plays its callbacks outside of all runs. -/
theorem Audit.play (h : Audit w xs es) (r : Routine σ) :
    ∃ es', (∀ e ∈ es', e.source = none) ∧
      Audit (w.ofBench (r.play behavior number ⟨w.now, w.recorder⟩).2) xs (es ++ es') := by
  have hplayed := excursion_play behavior number w xs r [] ⟨w.now, w.recorder⟩
  have hover : Excursion (w.ofBench (r.play behavior number ⟨w.now, w.recorder⟩).2)
      (afterPlay behavior number [] (r.play behavior number ⟨w.now, w.recorder⟩).1 ++ xs)
      (w.ofBench (r.play behavior number ⟨w.now, w.recorder⟩).2) xs := by
    cases (r.play behavior number ⟨w.now, w.recorder⟩).1 with
    | none => exact .refl _ _
    | some result => exact excursion_action behavior number w _ xs _ rfl rfl rfl
  exact hplayed.trans hover es (h.enter behavior number r)

end Play

/-! ### Series of requests -/

/-- One thing after the other is asked of a world. -/
abbrev AsksAll : World σ → World σ → Prop := Relation.ReflTransGen Asks

lemma Audit.asksAll (h : Audit w xs es) (hasks : AsksAll w v) : Audit v xs es := by
  induction hasks with
  | refl => exact h
  | tail _ hasks ih => exact ih.asks hasks

lemma Asks.log (w : World σ) (m : Message) : Asks w (w.log m) :=
  asks_of_keeps (.log m) (keeps_log w m "")

/-- A template that has been cast stays. -/
def Recalls (w v : World σ) : Prop := ∀ j, (w.template? j).isSome → (v.template? j).isSome

lemma recalls_of_templates (h : ∀ j, v.template? j = w.template? j) : Recalls w v := fun j hj => by
  rwa [h]

/-- What is cast comes after what has been cast before. -/
lemma castings_cast (w : World σ) (b : Behavior σ) :
    (∃ e, w.cast b = (.error e, w)) ∨
      ∃ v c, w.cast b = (.ok w.castings.length, v) ∧ v.castings = w.castings ++ [c] := by
  rw [cast]
  cases b.validate with
  | error e => exact .inl ⟨e, rfl⟩
  | ok t => exact .inr ⟨_, { template := t }, rfl, rfl⟩

lemma template?_cast {b : Behavior σ} {template : Nat} (h : w.cast b = (.ok template, v)) :
    (v.template? template).isSome := by
  obtain ⟨e, hcast⟩ | ⟨v', c, hcast, hcastings⟩ := w.castings_cast b
  · cases hcast.symm.trans h
  · cases hcast.symm.trans h
    simp [template?, hcastings]

lemma recalls_cast (w : World σ) (b : Behavior σ) : Recalls w (w.cast b).2 := by
  intro j hj
  obtain ⟨e, hcast⟩ | ⟨v, c, hcast, hcastings⟩ := w.castings_cast b
  · rwa [hcast]
  · rw [hcast]
    simp only [template?, hcastings, Option.isSome_map, isSome_getElem?, List.length_append] at hj ⊢
    exact Nat.lt_add_right _ hj

lemma Call.recalls (h : Call w v) : Recalls w v := by
  cases h with
  | cast b => exact recalls_cast w b
  | raise i => exact recalls_of_templates (w.apart_raise i).templates
  | abort i => exact recalls_of_templates (w.apart_abort i).templates
  | release i => exact recalls_of_templates (w.apart_release i).templates
  | _ => exact fun _ => id

lemma AsksAll.recalls (h : AsksAll w v) : Recalls w v := by
  induction h with
  | refl => exact fun _ => id
  | tail _ hasks ih => exact fun j hj => hasks.call.recalls j (ih j hj)

lemma Step.recalls (h : Step w v) : Recalls w v := by
  cases h with
  | @turn a before after hactors hready =>
    cases a with
    | user i u => exact recalls_of_templates apart_turn_user.templates
    | operation o => exact recalls_of_templates apart_turn_operation.templates
    | watch i tick => exact recalls_of_templates apart_turn_watch.templates
    | alarm i due => exact recalls_of_templates apart_turn_alarm.templates
  | wait hnow => exact fun _ => id

end World

/-! ### Controllers -/

namespace Controller

open World

variable {c c' : Controller σ ν} {xs : List (Visitor σ)} {es : List Incident}

/-- The registered behaviors have been cast. -/
def HasCast (c : Controller σ ν) : Prop :=
  ∀ b ∈ c.behaviors, (c.world.template? b.template).isSome

/-- A controller asks something of its world. -/
structure AsksWorld (c c' : Controller σ ν) : Prop where
  asks : AsksAll c.world c'.world
  behaviors : ∀ b ∈ c'.behaviors, b ∈ c.behaviors ∨ (c'.world.template? b.template).isSome

lemma asksAll_retire (c : Controller σ ν) (h : HeldRun) : AsksAll c.world (c.retire h).world := by
  have hretire : ∀ w : World σ, AsksAll w (((w.raise h.run).2.abort h.run).release h.run) := by
    intro w
    exact (((Relation.ReflTransGen.single (asks_of_keeps (.raise h.run) (keeps_raise _ _))).tail
      (asks_of_keeps (.abort h.run) (keeps_abort _ _))).tail
      (asks_of_keeps (.release h.run) (keeps_release _ _)))
  rw [retire]
  split
  next => exact .refl
  next r hr =>
    simp only
    split_ifs
    · exact .head (.log _ _) (hretire _)
    · exact hretire _

lemma behaviors_retire (c : Controller σ ν) (h : HeldRun) :
    (c.retire h).behaviors = c.behaviors := by
  rw [retire]
  split
  next => rfl
  next =>
    simp only
    split_ifs <;> rfl

lemma asksAll_supersede (c : Controller σ ν) : AsksAll c.world c.supersede.world := by
  rw [supersede]
  split
  next => exact c.asksAll_retire _
  next => exact .refl

lemma behaviors_supersede (c : Controller σ ν) : c.supersede.behaviors = c.behaviors := by
  rw [supersede]
  split
  next => exact c.behaviors_retire _
  next => rfl

lemma asksWorld_register (c : Controller σ ν) (b : Behavior σ) (profile : Option String) :
    AsksWorld c (c.register b profile).2 := by
  have hcast : AsksAll c.world (c.world.cast b).2 :=
    .single (asks_of_keeps (.cast b) (c.world.keeps_cast b))
  rw [register]
  split
  next e w heq =>
    rw [heq] at hcast
    exact ⟨hcast, fun _ => .inl⟩
  next template w heq =>
    have htemplate := template?_cast heq
    rw [heq] at hcast
    simp only
    split
    next => exact ⟨hcast, fun _ => .inl⟩
    next =>
      refine ⟨hcast.tail (.log _ _), fun b' hb' => ?_⟩
      rcases List.mem_append.1 hb' with hb' | hb'
      · exact .inl hb'
      · rw [List.mem_singleton.1 hb']
        exact .inr htemplate

lemma asksAll_opened {w : World σ} {template : Nat} (htemplate : (w.template? template).isSome)
    (context : RunContext) (hshared : context.shared = {}) (units : List WorkUnit) :
    AsksAll w (w.opened template context [.scenario units]) := by
  have hrun : ((w.openRun template context).2.run? w.runs.length).isSome := by
    rw [run?_openRun, if_pos rfl]
    rfl
  refine .tail (.single (asks_openRun htemplate hshared)) (asks_of_runs (.submit none hrun ?_) rfl)
  intro e he
  rw [List.mem_singleton.1 he]
  rfl

lemma mem_of_resolve {name : String} {b : Registered} {profile : String}
    (h : c.resolve name = .ok (b, profile)) : b ∈ c.behaviors := by
  rw [resolve] at h
  split at h
  next b' hfound =>
    cases h
    exact List.mem_of_find?_eq_some hfound
  next => cases h

lemma asksWorld_start (hcast : c.HasCast) (config : RunConfig) :
    AsksWorld c (c.start config).2 := by
  have hrefused : AsksWorld c c := ⟨.refl, fun _ => .inl⟩
  by_cases hrunning : (c.held.any fun h => !c.isFinished h) = true
  · rwa [start, if_pos hrunning]
  cases hresolve : c.resolve config.behavior with
  | error e => rwa [start, if_neg hrunning, hresolve]
  | ok resolved =>
    obtain ⟨b, profile⟩ := resolved
    cases hcompile : c.commands.compile (config.override?.getD profile) with
    | error e =>
      rw [start, if_neg hrunning, hresolve]
      simpa only [World.compile, hcompile] using hrefused
    | ok units =>
      rw [start_eq_ok hrunning hresolve (by rw [World.compile, hcompile])]
      set w := c.world.log ⟨.debug, s!"Compiled scenario into {units.size} work unit(s)"⟩
      set context : RunContext :=
        { runId := (c.idFor config).1, watchInterval := config.watchInterval }
      set begun : Controller σ ν :=
        { c with
          world := w.opened b.template context [.scenario units.toList]
          newIds := (c.idFor config).2 }
      have htemplate : (w.template? b.template).isSome := hcast b (mem_of_resolve hresolve)
      have hbegun : AsksAll c.world begun.world :=
        .head (.log _ _) (asksAll_opened htemplate context rfl _)
      refine ⟨(hbegun.trans begun.asksAll_supersede).tail (.log _ _), fun b' hb' => .inl ?_⟩
      exact begun.behaviors_supersede ▸ hb'

lemma asksWorld_stop (c : Controller σ ν) : AsksWorld c c.stop.2 := by
  rw [stop]
  split
  next => exact ⟨.single (.log _ _), fun _ => .inl⟩
  next h hheld =>
    have hraise : Asks c.world (c.world.raise h.run).2 :=
      asks_of_keeps (.raise h.run) (keeps_raise _ _)
    split
    next w heq =>
      rw [heq] at hraise
      exact ⟨.single hraise, fun _ => .inl⟩
    next w heq =>
      rw [heq] at hraise
      have habort := fun w : World σ => asks_of_keeps (.abort h.run) (w.keeps_abort h.run)
      exact ⟨.tail (.tail (.single hraise) (.log w _)) (habort _), fun _ => .inl⟩

lemma world_claim (c : Controller σ ν) :
    c.claim.2.world = c.world ∧ c.claim.2.behaviors = c.behaviors := by
  rw [claim]
  split
  next => exact ⟨rfl, rfl⟩
  next => split_ifs <;> exact ⟨rfl, rfl⟩

lemma AsksWorld.audit (h : AsksWorld c c') (hcast : c.HasCast) (haudit : Audit c.world xs es) :
    c'.HasCast ∧ ∃ es', Audit c'.world xs (es ++ es') := by
  refine ⟨fun b hb => ?_, [], by rw [List.append_nil]; exact haudit.asksAll h.asks⟩
  exact (h.behaviors b hb).elim (fun hb => h.asks.recalls _ (hcast b hb)) id

/-- Whatever a controller does can be written down. -/
theorem Step.audit (h : Step c c') (hcast : c.HasCast) (haudit : Audit c.world xs es) :
    c'.HasCast ∧ ∃ es', Audit c'.world xs (es ++ es') := by
  cases h with
  | world h =>
    refine ⟨fun b hb => h.recalls _ (hcast b hb), ?_⟩
    cases h with
    | turn hactors hready => exact ⟨_, haudit.turn hactors hready⟩
    | wait hnow => exact ⟨[], by rw [List.append_nil]; exact haudit.wait hnow⟩
  | register b profile => exact (c.asksWorld_register b profile).audit hcast haudit
  | start config => exact (asksWorld_start hcast config).audit hcast haudit
  | stop => exact c.asksWorld_stop.audit hcast haudit
  | claim =>
    obtain ⟨hworld, hbehaviors⟩ := c.world_claim
    have hsame : AsksWorld c c.claim.2 := ⟨hworld ▸ .refl, fun b hb => .inl (hbehaviors ▸ hb)⟩
    exact hsame.audit hcast haudit
  | raise run =>
    have hraise : AsksWorld c { c with world := (c.world.raise run).2 } :=
      ⟨.single (asks_of_keeps (.raise run) (keeps_raise _ _)), fun _ => .inl⟩
    exact hraise.audit hcast haudit

/-- So the theorems about audits hold of a controller at all times, with its held run and whoever is
left of earlier ones. -/
theorem Steps.audit (h : Steps c c') (hcast : c.HasCast) (haudit : Audit c.world xs es) :
    ∃ es', Audit c'.world xs (es ++ es') := by
  suffices hboth : c'.HasCast ∧ ∃ es', Audit c'.world xs (es ++ es') from hboth.2
  induction h with
  | refl => exact ⟨hcast, [], by rwa [List.append_nil]⟩
  | tail _ hstep ih =>
    obtain ⟨hcast', es₁, haudit₁⟩ := ih
    obtain ⟨hcast'', es₂, haudit₂⟩ := hstep.audit hcast' haudit₁
    exact ⟨hcast'', es₁ ++ es₂, by rwa [← List.append_assoc]⟩

end Controller

end LoadTest
