import LoadTest.Proofs.Moves
import LoadTest.Proofs.Sleeping

/-!
# What templates do by their callbacks

What the users of a template never do, such as raise the stop signal, and whether they sleep in
their cycles, can be read off the routines of its callbacks.
-/

namespace LoadTest

variable {σ : Type}

/-! ### Routines -/

/-- Nowhere in the routine is any of these deeds done. -/
def Routine.Avoids (p : Deed → Prop) : Routine σ → Prop
  | .finish _ _ => True
  | .panic _ => True
  | .sleep _ next => next.Avoids p
  | .record label next => ¬ p (.record label) ∧ next.Avoids p
  | .look next => ∀ run, (next run).Avoids p
  | .raise next => ¬ p .raise ∧ ∀ first, (next first).Avoids p
  | .transact labels body next =>
    (∀ succeeded elapsed, ¬ p (.transaction labels succeeded elapsed)) ∧ body.Avoids p ∧
      ∀ state failure, (next state failure).Avoids p

/-- The routine does not come to its end without a sleep. -/
def Routine.Sleeps : Routine σ → Prop
  | .finish _ _ => False
  | .panic _ => True
  | .sleep duration next => duration ≠ 0 ∨ next.Sleeps
  | .record _ next => next.Sleeps
  | .look next => ∀ run, (next run).Sleeps
  | .raise next => ∀ first, (next first).Sleeps
  | .transact _ body next => body.Sleeps ∨ ∀ state failure, (next state failure).Sleeps

namespace Activation

variable {a a' : Activation σ} {now : Millis} {run : Option RunView}

/-- Nothing that is left of the routine does any of these deeds. -/
def Avoids (p : Deed → Prop) (a : Activation σ) : Prop :=
  a.routine.Avoids p ∧ ∀ t ∈ a.opened,
    (∀ succeeded elapsed, ¬ p (.transaction t.labels succeeded elapsed)) ∧
      ∀ state failure, (t.next state failure).Avoids p

lemma avoids_begin {p : Deed → Prop} {r : Routine σ} (h : r.Avoids p) : (begin r).Avoids p :=
  ⟨h, fun _ ht => absurd ht List.not_mem_nil⟩

lemma Avoids.not_mem {p : Deed → Prop} (h : a.Avoids p) {d : Deed} (hd : p d) (now : Millis)
    (run : Option RunView) : d ∉ (a.step now run).2 := by
  obtain ⟨routine, opened, wakeAt⟩ := a
  obtain ⟨hroutine, hopened⟩ := h
  -- No action does more than one deed.
  have hone {d' : Deed} (hnot : ¬ p d') : d ∉ [d'] := fun hmem =>
    hnot (List.mem_singleton.1 hmem ▸ hd)
  cases wakeAt with
  | some wakeAt => exact List.not_mem_nil
  | none =>
    cases routine with
    | finish state failure =>
      cases opened with
      | nil => exact List.not_mem_nil
      | cons t ts => exact hone ((List.forall_mem_cons.1 hopened).1.1 _ _)
    | sleep d next => cases d <;> exact List.not_mem_nil
    | record label next => exact hone hroutine.1
    | raise next =>
      cases run with
      | none => exact List.not_mem_nil
      | some v => exact hone hroutine.1
    | _ => exact List.not_mem_nil

lemma Avoids.step {p : Deed → Prop} (h : a.Avoids p) (hstep : (a.step now run).1 = .going a') :
    a'.Avoids p := by
  obtain ⟨routine, opened, wakeAt⟩ := a
  obtain ⟨hroutine, hopened⟩ := h
  cases wakeAt with
  | some wakeAt =>
    cases hstep
    exact ⟨hroutine, hopened⟩
  | none =>
    cases routine with
    | finish state failure =>
      cases opened with
      | nil => cases hstep
      | cons t ts =>
        cases hstep
        obtain ⟨ht, hts⟩ := List.forall_mem_cons.1 hopened
        exact ⟨ht.2 state failure, hts⟩
    | panic reason => cases hstep
    | sleep d next =>
      cases d <;>
      · cases hstep
        exact ⟨hroutine, hopened⟩
    | record label next =>
      cases hstep
      exact ⟨hroutine.2, hopened⟩
    | look next =>
      cases hstep
      exact ⟨hroutine run, hopened⟩
    | raise next =>
      cases run <;>
      · cases hstep
        exact ⟨hroutine.2 _, hopened⟩
    | transact labels body next =>
      cases hstep
      obtain ⟨hlabels, hbody, hnext⟩ := hroutine
      exact ⟨hbody, List.forall_mem_cons.2 ⟨⟨hlabels, hnext⟩, hopened⟩⟩

/-- What is left of the routine does not come to its end without a sleep. -/
def Sleeps (a : Activation σ) : Prop :=
  a.routine.Sleeps ∨ ∃ t ∈ a.opened, ∀ state failure, (t.next state failure).Sleeps

lemma Sleeps.not_returned (h : a.Sleeps) (state : σ) (failure : Option String) :
    (a.step now run).1 ≠ .returned state failure := by
  obtain ⟨routine, opened, wakeAt⟩ := a
  intro hstep
  cases wakeAt with
  | some wakeAt => cases hstep
  | none =>
    cases routine with
    | finish state failure =>
      cases opened with
      | nil => simp [Sleeps, Routine.Sleeps] at h
      | cons t ts => cases hstep
    | sleep d next => cases d <;> cases hstep
    | raise next => cases run <;> cases hstep
    | _ => cases hstep

/-- It goes on to sleep, unless it falls asleep right away. -/
lemma Sleeps.step (h : a.Sleeps) (hawake : a.wakeAt = none) (hstep : (a.step now run).1 = .going a')
    (hwake : a'.wakeAt = none) : a'.Sleeps := by
  obtain ⟨routine, opened, wakeAt⟩ := a
  cases hawake
  cases routine with
  | finish state failure =>
    cases opened with
    | nil => cases hstep
    | cons t ts =>
      cases hstep
      obtain ⟨t', ht', hsleeps⟩ := h.resolve_left not_false
      rcases List.mem_cons.1 ht' with rfl | ht'
      · exact .inl (hsleeps state failure)
      · exact .inr ⟨t', ht', hsleeps⟩
  | panic reason => cases hstep
  | sleep d next =>
    cases d with
    | zero =>
      cases hstep
      exact h.imp_left fun hnext => hnext.resolve_left fun hne => hne rfl
    | succ d =>
      cases hstep
      cases hwake
  | record label next =>
    cases hstep
    exact h
  | look next =>
    cases hstep
    exact h.imp_left fun hnext => hnext run
  | raise next =>
    cases run with
    | none =>
      cases hstep
      exact h.imp_left fun hnext => hnext none
    | some v =>
      cases hstep
      exact h.imp_left fun hnext => hnext _
  | transact labels body next =>
    cases hstep
    rcases h with (hbody | hnext) | ⟨t, ht, hsleeps⟩
    · exact .inl hbody
    · exact .inr ⟨_, List.mem_cons_self .., hnext⟩
    · exact .inr ⟨t, List.mem_cons_of_mem _ ht, hsleeps⟩

end Activation

/-! ### Callbacks -/

/-- Something holds of all callbacks of a behavior. -/
structure Behavior.AllCallbacks (b : Behavior σ) (p : (σ → Routine σ) → Prop) : Prop where
  setUp : p b.setUp
  beforeTask : p b.beforeTask
  afterTask : p b.afterTask
  tearDown : p b.tearDown
  task : ∀ task ∈ b.taskSet.tasks, p task.run
  hook : ∀ hook ∈ b.taskSet.before ++ b.taskSet.after, p hook.run

lemma pick_mem (unit : Nat) (t : Task σ) (others : List (Task σ)) (draw : Nat) :
    pick unit t others draw ∈ t :: others := by
  induction others generalizing t draw with
  | nil => exact List.mem_cons_self ..
  | cons u us ih =>
    rw [pick]
    split_ifs
    · exact List.mem_cons_self ..
    · exact List.mem_cons_of_mem _ (ih u _)

lemma Template.select_mem (t : Template σ) (word : UInt64) : t.select word ∈ t.taskSet.tasks := by
  rw [t.tasks_eq]
  exact pick_mem ..

lemma mem_hookCalls {side : String} {hooks : List (Hook σ)} {task : Task σ} {call : Call σ}
    (h : call ∈ hookCalls side hooks task) : ∃ hook ∈ hooks, call.run = hook.run := by
  obtain ⟨hook, hmem, rfl⟩ := List.mem_map.1 h
  exact ⟨hook, (List.mem_filter.1 hmem).1, rfl⟩

lemma Behavior.AllCallbacks.laterCalls {b : Behavior σ} {p : (σ → Routine σ) → Prop}
    (h : b.AllCallbacks p) {task : Task σ} (htask : task ∈ b.taskSet.tasks) {call : Call σ}
    (hcall : call ∈ b.laterCalls task) : p call.run := by
  simp only [Behavior.laterCalls, List.mem_append, List.mem_cons, List.not_mem_nil, or_false]
    at hcall
  rcases hcall with (hcall | rfl | hcall) | rfl
  · obtain ⟨hook, hhook, heq⟩ := mem_hookCalls hcall
    exact heq ▸ h.hook hook (List.mem_append_left _ hhook)
  · exact h.task task htask
  · obtain ⟨hook, hhook, heq⟩ := mem_hookCalls hcall
    exact heq ▸ h.hook hook (List.mem_append_right _ hhook)
  · exact h.afterTask

/-! ### Users -/

/-- Nothing that is left of the callbacks under way does any of these deeds. -/
def Phase.Avoids (p : Deed → Prop) : Phase σ → Prop
  | .calling (.cycle _ _ left _) a =>
    a.Avoids p ∧ ∀ call ∈ left, ∀ state, (call.run state).Avoids p
  | .calling _ a => a.Avoids p
  | _ => True

/-- The user is inside of a cycle and sleeps before it comes to the next one, or it is past all of
them. -/
def Phase.SleepsAhead : Phase σ → Prop
  | .calling (.cycle _ _ left pause) a =>
    a.wakeAt = none ∧ (pause ≠ 0 ∨ a.Sleeps ∨ ∃ call ∈ left, ∀ state, (call.run state).Sleeps)
  | .calling (.tearDown _) _ => True
  | _ => False

namespace User

variable {t : Template σ} {u : User σ} {v : View}

lemma IsOf.template_eq (h : u.IsOf t) : u.template = t := by
  obtain ⟨lifecycle, ticket, hsteps⟩ := h
  induction hsteps with
  | refl => rfl
  | tail hsteps hstep ih =>
    obtain ⟨v, rfl⟩ := hstep
    have hof : IsOf t _ := ⟨lifecycle, ticket, hsteps⟩
    exact (step_keeps (v := v) hof.fits).1.trans ih

section Avoids

variable {p : Deed → Prop} (h : u.template.AllCallbacks fun run => ∀ state, (run state).Avoids p)

include h

lemma avoids_tearDown (state : σ) (failure : Option String) :
    (u.tearDown state failure).phase.Avoids p := Activation.avoids_begin (h.tearDown state)

lemma avoids_beginCycle (state : σ) (completed : UInt32) :
    (u.beginCycle state completed).phase.Avoids p := by
  obtain ⟨word, hphase⟩ := u.phase_beginCycle state completed
  rw [hphase]
  refine ⟨Activation.avoids_begin (h.beforeTask state), fun call hcall => ?_⟩
  exact h.laterCalls (u.template.select_mem word) hcall

lemma avoids_endCycle (state : σ) (completed : UInt32) :
    (u.endCycle state completed).phase.Avoids p := by
  rcases u.phase_endCycle state completed with hphase | hphase
  · exact hphase ▸ avoids_tearDown h state none
  · exact hphase ▸ trivial

/-- A step of such a user leaves another one. -/
lemma avoids_step (hu : u.phase.Avoids p) (v : View) : (u.step v).1.phase.Avoids p := by
  cases hended : (u.step v).1.isEnded with
  | true => rw [phase_of_isEnded hended]; trivial
  | false =>
    have hmoves := movesTo_of_isEnded hended
    generalize (u.step v).1.phase = next at hmoves
    cases hmoves with
    | arrives hphase | looks hphase => trivial
    | isMade hphase => exact Activation.avoids_begin (h.setUp _)
    | @goesOn stage a a' hphase hstep =>
      rw [hphase] at hu
      cases stage with
      | cycle completed call left pause => exact ⟨hu.1.step hstep, hu.2⟩
      | _ => exact Activation.Avoids.step hu hstep
    | returns hphase hstep hnext =>
      rw [hphase] at hu
      cases hnext with
      | firstCycle hl => exact avoids_beginCycle h _ 0
      | check hl | pause hpause => trivial
      | nextCall =>
        obtain ⟨hnext, hleft⟩ := List.forall_mem_cons.1 hu.2
        exact ⟨Activation.avoids_begin (hnext _), hleft⟩
      | endOfCycle => exact avoids_endCycle h _ _
      | tearDown hfatal => exact avoids_tearDown h _ _
    | wakes hphase => exact avoids_endCycle h _ _
    | begins hphase hgoes => exact avoids_beginCycle h _ _
    | stops hphase => exact avoids_tearDown h _ _

end Avoids

lemma finish_not_deed (u : User σ) (failure : Option String) (d : Deed) :
    .deed d ∉ (u.finish failure).2 := by
  cases failure <;> simp [finish]

lemma returned_not_deed (u : User σ) (now : Millis) (stage : Stage σ) (state : σ)
    (failure : Option String) (d : Deed) : .deed d ∉ (u.returned now stage state failure).2 := by
  cases stage with
  | setUp =>
    cases failure with
    | some reason => exact u.finish_not_deed (some reason) d
    | none =>
      rw [returned]
      split <;> exact List.not_mem_nil
  | cycle completed call left pause =>
    cases hcall : call.onFailure <;> cases failure <;> cases left <;>
      simp only [returned, hcall] <;>
      first
      | simp
      | split_ifs <;> simp
  | tearDown first =>
    cases first with
    | none => cases failure <;> exact u.finish_not_deed _ d
    | some reason =>
      cases failure with
      | none => exact u.finish_not_deed _ d
      | some second =>
        simp only [returned, List.mem_cons, not_or]
        exact ⟨by simp, u.finish_not_deed _ d⟩

/-- Deeds are done inside of callbacks only. -/
lemma not_deed_of_avoids {p : Deed → Prop} (hu : u.phase.Avoids p) {d : Deed} (hd : p d)
    (v : View) : .deed d ∉ (u.step v).2 := by
  rw [step]
  split_ifs
  · simp [abandon]
  · cases hphase : u.phase with
    | launched => simp
    | arrived => cases u.template.create v.nextInstance <;> simp
    | calling stage a =>
      have ha : a.Avoids p := by
        rw [hphase] at hu
        cases stage with
        | cycle completed call left pause => exact hu.1
        | _ => exact hu
      have hdeeds := ha.not_mem hd v.now (some v.run)
      cases hstep : a.step v.now (some v.run) with
      | mk standing deeds =>
        rw [hstep] at hdeeds
        have hmap : .deed d ∉ deeds.map Effect.deed := by simpa using hdeeds
        cases standing with
        | going a' => simpa only [hstep] using hmap
        | returned state failure =>
          simp only [hstep, List.mem_append, not_or]
          exact ⟨hmap, u.returned_not_deed v.now stage state failure _⟩
        | panicked =>
          simp only [hstep, List.mem_append, not_or]
          exact ⟨hmap, by simp⟩
    | pausing state completed wakeAt => simp
    | yielding state completed => simp
    | deciding state completed =>
      simp only
      rw [decide]
      split_ifs <;> simp
    | ended => simp

end User

/-- The users of a template do what some callback does, and nothing else. -/
theorem Template.not_deed_of_callbacks {t : Template σ} {p : Deed → Prop}
    (h : t.AllCallbacks fun run => ∀ state, (run state).Avoids p) {u : User σ} (hu : u.IsOf t)
    {d : Deed} (hd : p d) (v : View) : .deed d ∉ (u.step v).2 := by
  refine User.not_deed_of_avoids (p := p) ?_ hd v
  obtain ⟨lifecycle, ticket, hsteps⟩ := hu
  induction hsteps with
  | refl => trivial
  | tail hsteps hstep ih =>
    obtain ⟨v, rfl⟩ := hstep
    have hof : User.IsOf t _ := ⟨lifecycle, ticket, hsteps⟩
    exact User.avoids_step (by rw [hof.template_eq]; exact h) ih v

/-- A template raises the stop signal only if some callback does. -/
theorem Template.neverRaises_of_callbacks {t : Template σ}
    (h : t.AllCallbacks fun run => ∀ state, (run state).Avoids (· = .raise)) : t.NeverRaises :=
  fun _ hu v => not_deed_of_callbacks h hu rfl v

/-! ### Sleeping in cycles -/

namespace User

variable {t : Template σ} {u u' : User σ}

/-- On the way to its sleep or to its end, a user that stays awake goes on so. -/
lemma sleepsAhead_step (hu : u.phase.SleepsAhead) (h : StaysAwake u u') : u'.phase.SleepsAhead := by
  obtain ⟨v, rfl, hended, hawake⟩ := h
  have hmoves := movesTo_of_isEnded hended
  rw [isAsleep, wakeAt?] at hawake
  generalize (u.step v).1.phase = p at hmoves hawake
  cases hmoves with
  | @goesOn stage a a' hphase hstep =>
    rw [hphase] at hu
    have hwake : a'.wakeAt = none := by simpa using hawake
    cases stage with
    | setUp => exact absurd hu not_false
    | cycle completed call left pause =>
      exact ⟨hwake, hu.2.imp_right (Or.imp_left fun hsleeps => hsleeps.step hu.1 hstep hwake)⟩
    | tearDown first => trivial
  | @returns stage a state failure p hphase hstep hnext =>
    rw [hphase] at hu
    cases hnext with
    | firstCycle hl | check hl => exact absurd hu not_false
    | nextCall =>
      obtain ⟨-, hpause | hsleeps | ⟨call', hcall', hsleeps⟩⟩ := hu
      · exact ⟨rfl, .inl hpause⟩
      · exact absurd hstep (hsleeps.not_returned state failure)
      · rcases List.mem_cons.1 hcall' with rfl | hcall'
        · exact ⟨rfl, .inr (.inl (.inl (hsleeps state)))⟩
        · exact ⟨rfl, .inr (.inr ⟨call', hcall', hsleeps⟩)⟩
    | pause hpause => cases hawake
    | endOfCycle =>
      obtain ⟨-, hpause | hsleeps | ⟨call', hcall', -⟩⟩ := hu
      · exact absurd rfl hpause
      · exact absurd hstep (hsleeps.not_returned state failure)
      · cases hcall'
    | tearDown hfatal => trivial
  | arrives hphase | isMade hphase | wakes hphase | looks hphase | begins hphase _ | stops hphase =>
    rw [hphase] at hu
    exact absurd hu not_false

/-- From one decision on, a user whose tasks sleep is bound to sleep until it ends. -/
lemma sleepsAhead_of_tasks
    (h : ∀ task ∈ t.taskSet.tasks, task.delayAfter ≠ 0 ∨ ∀ state, (task.run state).Sleeps)
    (hu : u.IsOf t) (hdeciding : u.isDeciding) (hpath : Relation.TransGen StaysAwake u u') :
    u'.phase.SleepsAhead := by
  induction hpath with
  | single hstep =>
    obtain ⟨v, rfl, hended, hawake⟩ := hstep
    cases hphase : u.phase with
    | deciding state completed =>
      rw [(step_of_deciding hphase).1, decide]
      split_ifs
      · obtain ⟨word, hbegin⟩ := u.phase_beginCycle state completed
        rw [hbegin, hu.template_eq]
        refine ⟨rfl, (h _ (t.select_mem word)).imp_right fun hsleeps => .inr ?_⟩
        refine ⟨⟨_, .fatal⟩, ?_, hsleeps⟩
        simp [Behavior.laterCalls]
      · trivial
    | _ => simp [isDeciding, hphase] at hdeciding
  | tail _ hstep ih => exact sleepsAhead_step ih hstep

end User

/-- A template sleeps in its cycles if each of its tasks sleeps or is followed by a pause. -/
theorem Template.sleepsInCycles_of_tasks {t : Template σ}
    (h : ∀ task ∈ t.taskSet.tasks, task.delayAfter ≠ 0 ∨ ∀ state, (task.run state).Sleeps) :
    t.SleepsInCycles := by
  intro u u' hu _ hdeciding hdeciding' hpath
  have hahead := User.sleepsAhead_of_tasks h hu hdeciding hpath
  cases hphase : u'.phase with
  | deciding state completed =>
    rw [hphase] at hahead
    exact hahead
  | _ => simp [User.isDeciding, hphase] at hdeciding'

end LoadTest
