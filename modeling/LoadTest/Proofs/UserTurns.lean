import LoadTest.Proofs.Following
import LoadTest.Proofs.Turns

/-!
# The turn of a user

A user enters the pool of its run by its first step and leaves it by its last one. All that it does
to the run in between is what its callbacks do: they may raise the stop signal, and their
transactions are counted.
-/

namespace LoadTest

variable {σ : Type}

/-! ### Steps and the pool -/

/-- Effects that are not about the pool. -/
def Effect.IsInner : Effect → Prop
  | .register _ => False
  | .leave => False
  | _ => True

namespace User

variable {u : User σ} {v : View}

def isLaunched (u : User σ) : Bool :=
  match u.phase with
  | .launched => true
  | _ => false

/-- The user is in the pool. -/
def isEnrolled (u : User σ) : Bool := !u.isLaunched && !u.isEnded

lemma isEnrolled_iff : u.isEnrolled = true ↔ u.isLaunched = false ∧ u.isEnded = false := by
  simp [isEnrolled]

lemma phase_of_isLaunched (h : u.isLaunched = true) : u.phase = .launched := by
  revert h
  rw [isLaunched]
  split <;> simp_all

/-- What a step leads to that neither enters the pool nor comes after the end: the same user with
some inner effects, after which it leaves if it has ended. -/
structure Carries (u : User σ) (next : User σ × List Effect) : Prop where
  id : next.1.id = u.id
  isLaunched : next.1.isLaunched = false
  effects : ∃ es : List Effect, (∀ e ∈ es, e.IsInner) ∧
    next.2 = if next.1.isEnded then es ++ [.leave] else es

lemma Carries.of_enter {p : Phase σ} {es : List Effect} (hlaunched : (u.enter p).isLaunched = false)
    (hended : (u.enter p).isEnded = false) (hes : ∀ e ∈ es, e.IsInner) :
    u.Carries (u.enter p, es) :=
  ⟨rfl, hlaunched, es, hes, by simp [hended]⟩

lemma Carries.of_end {es : List Effect} (hes : ∀ e ∈ es, e.IsInner) :
    u.Carries (u.enter .ended, es ++ [.leave]) :=
  ⟨rfl, rfl, es, hes, rfl⟩

/-- Inner effects may come first. -/
lemma Carries.prepend {next : User σ × List Effect} (h : u.Carries next) {es : List Effect}
    (hes : ∀ e ∈ es, e.IsInner) : u.Carries (next.1, es ++ next.2) := by
  obtain ⟨hid, hlaunched, fs, hfs, heq⟩ := h
  refine ⟨hid, hlaunched, es ++ fs, ?_, ?_⟩
  · intro e he
    rcases List.mem_append.1 he with he | he
    · exact hes e he
    · exact hfs e he
  · show es ++ next.2 = _
    rw [heq]
    split_ifs
    · exact (List.append_assoc ..).symm
    · rfl

lemma Carries.cons {next : User σ × List Effect} (h : u.Carries next) {e : Effect}
    (he : e.IsInner) : u.Carries (next.1, e :: next.2) := by
  have hes : ∀ e' ∈ [e], e'.IsInner := by simpa using he
  exact h.prepend hes

lemma carries_finish (u : User σ) (failure : Option String) : u.Carries (u.finish failure) := by
  cases failure with
  | none => exact @Carries.of_end σ u [.discard] (by simp [Effect.IsInner])
  | some reason =>
    exact @Carries.of_end σ u [.log ⟨.error, s!"Virtual user failed: {reason}"⟩, .discard]
      (by simp [Effect.IsInner])

lemma carries_tearDown (u : User σ) (state : σ) (failure : Option String) {es : List Effect}
    (hes : ∀ e ∈ es, e.IsInner) : u.Carries (u.tearDown state failure, es) :=
  .of_enter rfl rfl hes

lemma carries_beginCycle (u : User σ) (state : σ) (completed : UInt32) :
    u.Carries (u.beginCycle state completed, []) :=
  .of_enter rfl rfl (by simp)

lemma carries_endCycle (u : User σ) (state : σ) (completed : UInt32) {es : List Effect}
    (hes : ∀ e ∈ es, e.IsInner) : u.Carries (u.endCycle state completed, es) := by
  rw [endCycle]
  split
  · exact u.carries_tearDown state none hes
  · exact .of_enter rfl rfl hes

lemma carries_decide (u : User σ) (v : View) (state : σ) (completed : UInt32) :
    u.Carries (u.decide v state completed) := by
  rw [decide]
  split_ifs
  · exact u.carries_beginCycle state completed
  · exact u.carries_tearDown state none (by simp [Effect.IsInner])

/-- What follows a callback of a cycle that has not failed fatally. -/
lemma carries_onwards (u : User σ) (now : Millis) (state : σ) (completed : UInt32)
    (left : List (Call σ)) (pause : Millis) {report : List Effect}
    (hreport : ∀ e ∈ report, e.IsInner) :
    u.Carries
      (match left with
      | next :: left =>
        (u.enter (.calling (.cycle completed next left pause) (.begin (next.run state))), report)
      | [] =>
        if pause = 0 then (u.endCycle state completed, report)
        else (u.enter (.pausing state completed (wakeTime now pause)), report)) := by
  cases left with
  | cons next left => exact .of_enter rfl rfl hreport
  | nil =>
    simp only
    split_ifs
    · exact u.carries_endCycle state completed hreport
    · exact .of_enter rfl rfl hreport

lemma carries_returned (u : User σ) (now : Millis) (stage : Stage σ) (state : σ)
    (failure : Option String) : u.Carries (u.returned now stage state failure) := by
  cases stage with
  | setUp =>
    cases failure with
    | some reason => exact u.carries_finish (some reason)
    | none =>
      cases hl : u.lifecycle with
      | regular => simpa [returned, hl] using u.carries_beginCycle state 0
      | _ =>
        simp only [returned, hl]
        exact .of_enter rfl rfl (by simp)
  | cycle completed call left pause =>
    cases hcall : call.onFailure with
    | fatal =>
      cases failure with
      | none =>
        simp only [returned, hcall]
        exact u.carries_onwards now state completed left pause (by simp)
      | some reason =>
        simp only [returned, hcall]
        exact u.carries_tearDown state (some reason) (by simp)
    | logged what =>
      cases failure with
      | none =>
        simp only [returned, hcall]
        exact u.carries_onwards now state completed left pause (by simp)
      | some reason =>
        simp only [returned, hcall]
        exact u.carries_onwards now state completed left pause (by simp [Effect.IsInner])
  | tearDown first =>
    cases first with
    | none =>
      cases failure with
      | none => exact u.carries_finish none
      | some second => exact u.carries_finish (some second)
    | some reason =>
      cases failure with
      | none => exact u.carries_finish (some reason)
      | some second =>
        exact (u.carries_finish (some reason)).cons (by simp [Effect.IsInner])

/-- The steps between the first one and the end. -/
lemma carries_step (v : View) (hlaunched : u.isLaunched = false) (hended : u.isEnded = false) :
    u.Carries (u.step v) := by
  rw [step]
  split_ifs
  · exact @Carries.of_end σ u [.discard] (by simp [Effect.IsInner])
  · cases hphase : u.phase with
    | launched => simp [isLaunched, hphase] at hlaunched
    | arrived =>
      cases hcreate : u.template.create v.nextInstance with
      | error reason =>
        simp only
        exact @Carries.of_end σ u [.construct, .log _] (by simp [Effect.IsInner])
      | ok state =>
        simp only
        exact ⟨rfl, rfl, [.construct], by simp [Effect.IsInner], rfl⟩
      | panic reason =>
        simp only
        exact @Carries.of_end σ u [.construct, .log _] (by simp [Effect.IsInner])
    | calling stage a =>
      have hdeeds : ∀ deeds : List Deed, ∀ e ∈ deeds.map Effect.deed, e.IsInner := by
        intro deeds e he
        obtain ⟨d, -, rfl⟩ := List.mem_map.1 he
        trivial
      cases hstep : a.step v.now (some v.run) with
      | mk standing deeds =>
        cases standing with
        | going a' =>
          simp only [hstep]
          exact .of_enter rfl rfl (hdeeds deeds)
        | returned state failure =>
          simp only [hstep]
          exact (u.carries_returned v.now stage state failure).prepend (hdeeds deeds)
        | panicked =>
          simp only [hstep]
          have hend := @Carries.of_end σ u [.discard, .log ⟨.error, "Virtual user panicked"⟩]
            (by simp [Effect.IsInner])
          exact hend.prepend (hdeeds deeds)
    | pausing state completed wakeAt => exact u.carries_endCycle state completed (by simp)
    | yielding state completed => exact .of_enter rfl rfl (by simp)
    | deciding state completed => exact u.carries_decide v state completed
    | ended => simp [isEnded, hphase] at hended

end User

/-! ### Effects on the world -/

/-- Two states of a run between which its users have done nothing but to raise its signal and to
make transactions. -/
def Run.Alike (r q : Run) : Prop :=
  (r.isRaised = true → q.isRaised = true) ∧
    ∃ shared, q = { r with context := { r.context with shared } }

namespace Run.Alike

variable {r q t : Run}

lemma refl (r : Run) : r.Alike r := ⟨id, r.context.shared, rfl⟩

lemma trans (hrq : r.Alike q) (hqt : q.Alike t) : r.Alike t := by
  obtain ⟨hq, shared, rfl⟩ := hrq
  obtain ⟨ht, shared', rfl⟩ := hqt
  exact ⟨ht ∘ hq, shared', rfl⟩

lemma raise (r : Run) : r.Alike r.raise.2 := ⟨fun _ => rfl, _, rfl⟩

lemma pool (h : r.Alike q) : q.pool = r.pool := by
  obtain ⟨-, shared, rfl⟩ := h
  rfl

end Run.Alike

namespace World

variable {w v : World σ} {i : Nat}

/-- The template at a place. -/
def template? (w : World σ) (j : Nat) : Option (Template σ) := (w.castings[j]?).map Casting.template

/-- Two worlds that differ only at a run, in who there is to act, and in what is recorded. -/
structure Apart (i : Nat) (w v : World σ) : Prop where
  now : v.now = w.now
  others : ∀ j, j ≠ i → v.run? j = w.run? j
  templates : ∀ j, v.template? j = w.template? j

namespace Apart

lemma refl (i : Nat) (w : World σ) : Apart i w w := ⟨rfl, fun _ _ => rfl, fun _ => rfl⟩

lemma trans {x : World σ} (hwv : Apart i w v) (hvx : Apart i v x) : Apart i w x :=
  ⟨hvx.now.trans hwv.now, fun j hj => (hvx.others j hj).trans (hwv.others j hj),
    fun j => (hvx.templates j).trans (hwv.templates j)⟩

lemma of_runs (hnow : v.now = w.now) (hruns : v.runs = w.runs)
    (hcastings : v.castings = w.castings) :
    Apart i w v :=
  ⟨hnow, fun j _ => by rw [run?, hruns, run?], fun _ => by rw [template?, hcastings, template?]⟩

lemma setRun (w : World σ) (i : Nat) (r : Run) : Apart i w (w.setRun i r) :=
  ⟨rfl, fun _ hj => List.getElem?_set_ne (Ne.symm hj), fun _ => rfl⟩

end Apart

lemma apart_log (w : World σ) (m : Message) (user : String) : Apart i w (w.log m user) :=
  .of_runs rfl rfl rfl

lemma apart_publish (w : World σ) (j : Nat) : Apart i w (w.publish j) := by
  rw [publish]
  split <;> exact .of_runs rfl rfl rfl

lemma run?_publish (w : World σ) (i j : Nat) : (w.publish j).run? i = w.run? i := by
  rw [publish]
  split <;> rfl

lemma run?_setRun_self {r q : Run} (hr : w.run? i = some r) : (w.setRun i q).run? i = some q := by
  rw [run?_setRun hr, if_pos rfl]

lemma apart_applyEffect (i : Nat) (u : User σ) (w : World σ) (e : Effect) :
    Apart i w (applyEffect i u w e) := by
  rw [applyEffect]
  cases hr : w.run? i with
  | none => exact .refl i w
  | some r =>
    cases e with
    | register mode =>
      simp only
      split_ifs
      · exact (apart_log w _ "").trans ((Apart.setRun _ i _).trans (apart_publish _ i))
      · exact (Apart.setRun w i _).trans (apart_publish _ i)
    | construct =>
      refine ⟨rfl, fun _ _ => rfl, fun j => ?_⟩
      simp only [template?, List.getElem?_modify]
      cases w.castings[j]? with
      | none => rfl
      | some c =>
        simp only [Option.map_eq_map, Option.map_some]
        split_ifs <;> rfl
    | deed d =>
      cases d with
      | record label => exact .of_runs rfl rfl rfl
      | transaction labels succeeded elapsed =>
        exact (Apart.setRun w i _).trans (.of_runs rfl rfl rfl)
      | raise => exact Apart.setRun w i _
    | log m => exact apart_log w m _
    | discard => exact .of_runs rfl rfl rfl
    | leave =>
      simp only
      split_ifs
      · exact (Apart.setRun w i _).trans (apart_publish _ i)
      · exact Apart.setRun w i _

lemma apart_foldl {α : Type} {f : World σ → α → World σ} (hf : ∀ w a, Apart i w (f w a))
    (as : List α) (w : World σ) : Apart i w (as.foldl f w) := by
  induction as generalizing w with
  | nil => exact .refl i w
  | cons a as ih => exact (hf w a).trans (ih (f w a))

/-- Inner effects leave the pool of the run alone. Its signal is raised by raising it only. -/
lemma applyEffect_inner {u : User σ} {r : Run} {e : Effect} (hr : w.run? i = some r)
    (he : e.IsInner) :
    ∃ q, (applyEffect i u w e).run? i = some q ∧ r.Alike q ∧
      (e ≠ .deed .raise → q.isRaised = r.isRaised) := by
  rw [applyEffect, hr]
  cases e with
  | register mode => exact absurd he id
  | leave => exact absurd he id
  | construct => exact ⟨r, hr, .refl r, fun _ => rfl⟩
  | log m => exact ⟨r, hr, .refl r, fun _ => rfl⟩
  | discard => exact ⟨r, hr, .refl r, fun _ => rfl⟩
  | deed d =>
    cases d with
    | record label => exact ⟨r, hr, .refl r, fun _ => rfl⟩
    | raise => exact ⟨_, run?_setRun_self hr, .raise r, fun h => absurd rfl h⟩
    | transaction labels succeeded elapsed =>
      have hraised : (r.context.shared.countTransaction succeeded).raised = r.isRaised := by
        cases succeeded <;> rfl
      exact ⟨_, run?_setRun_self hr, ⟨fun h => hraised.trans h, _, rfl⟩, fun _ => hraised⟩

lemma foldl_inner {u : User σ} {r : Run} {es : List Effect} (hr : w.run? i = some r)
    (hes : ∀ e ∈ es, e.IsInner) :
    ∃ q, (es.foldl (applyEffect i u) w).run? i = some q ∧ r.Alike q ∧
      (.deed .raise ∉ es → q.isRaised = r.isRaised) := by
  induction es generalizing w r with
  | nil => exact ⟨r, hr, .refl r, fun _ => rfl⟩
  | cons e es ih =>
    obtain ⟨q, hq, hrq, hraised⟩ := applyEffect_inner (u := u) hr (hes e (List.mem_cons_self ..))
    obtain ⟨t, ht, hqt, hraised'⟩ := ih hq fun e' he' => hes e' (List.mem_cons_of_mem e he')
    refine ⟨t, ht, hrq.trans hqt, fun hnot => ?_⟩
    rw [List.mem_cons, not_or] at hnot
    rw [hraised' hnot.2, hraised (Ne.symm hnot.1)]

lemma applyEffect_leave {u : User σ} {r : Run} (hr : w.run? i = some r) :
    (applyEffect i u w .leave).run? i = some { r with pool := r.pool.deregister u.id } := by
  rw [applyEffect, hr]
  simp only
  split_ifs
  · rw [run?_publish, run?_setRun_self hr]
  · exact run?_setRun_self hr

lemma applyEffect_register {u : User σ} {r : Run} (mode : Mode) (hr : w.run? i = some r) :
    (applyEffect i u w (.register mode)).run? i =
      some
        { r with
          pool := r.pool.issueId.2.register { id := r.pool.nextId, mode }
          arriving := r.arriving.erase u.ticket } := by
  rw [applyEffect, hr]
  simp only
  split_ifs
  · rw [run?_publish]
    exact run?_setRun_self (w := w.log _ "") hr
  · rw [run?_publish, run?_setRun_self hr]
    rfl

/-! ### Turns -/

/-- The user that is left of a turn, if it has not ended. -/
def stepUser (w : World σ) (r : Run) (u : User σ) : User σ := (u.step (w.viewOf r u)).1

lemma apart_turn_user {u : User σ} {others : List (Actor σ)} :
    Apart i w (w.turn (.user i u) others) := by
  cases hr : w.run? i with
  | none =>
    simp only [turn, hr]
    exact .of_runs rfl rfl rfl
  | some r =>
    have heffects := apart_foldl (apart_applyEffect i (w.stepUser r u)) (u.step (w.viewOf r u)).2 w
    simp only [turn, hr]
    split_ifs <;> exact heffects.trans (.of_runs rfl rfl rfl)

/-- By its first step a user enters the pool. It goes on at once. -/
lemma turn_launched {u : User σ} (others : List (Actor σ)) {r : Run} (hr : w.run? i = some r)
    (hlaunched : u.isLaunched = true) :
    (w.turn (.user i u) others).run? i =
        some
          { r with
            pool := r.pool.issueId.2.register { id := r.pool.nextId, mode := u.lifecycle.mode }
            arriving := r.arriving.erase u.ticket } ∧
      (w.turn (.user i u) others).actors =
        .user i { u with id := r.pool.nextId, phase := .arrived } :: others := by
  obtain ⟨hstep, -⟩ :=
    User.step_of_launched (v := w.viewOf r u) (User.phase_of_isLaunched hlaunched)
  have hrun := applyEffect_register (u := { u with id := r.pool.nextId, phase := .arrived })
    u.lifecycle.mode hr
  simp only [turn, hr, hstep, List.foldl_cons, List.foldl_nil]
  exact ⟨hrun, rfl⟩

/-- Between its first step and its end a user leaves the pool alone. Its turn is over if it is
suspended, and has not been aborted. -/
lemma turn_goesOn {u : User σ} (others : List (Actor σ)) {r : Run} (hr : w.run? i = some r)
    (hlaunched : u.isLaunched = false) (hended : u.isEnded = false)
    (hgoes : (w.stepUser r u).isEnded = false) :
    ∃ q, (w.turn (.user i u) others).run? i = some q ∧ r.Alike q ∧
      (.deed .raise ∉ (u.step (w.viewOf r u)).2 → q.isRaised = r.isRaised) ∧
      (w.turn (.user i u) others).actors =
        if (w.stepUser r u).isSuspended && !isAborted q (w.stepUser r u) then
          others ++ [.user i (w.stepUser r u)]
        else .user i (w.stepUser r u) :: others := by
  obtain ⟨-, -, es, hes, heffects⟩ := User.carries_step (w.viewOf r u) hlaunched hended
  have hgoes' : (u.step (w.viewOf r u)).1.isEnded = false := hgoes
  rw [hgoes', if_neg Bool.false_ne_true] at heffects
  obtain ⟨q, hq, hrq, hraised⟩ := foldl_inner (u := (u.step (w.viewOf r u)).1) hr hes
  refine ⟨q, ?_, hrq, fun hnot => hraised (heffects ▸ hnot), ?_⟩
  · simp only [turn, hr, heffects, hgoes', hq, if_neg Bool.false_ne_true]
    split_ifs <;> exact hq
  · simp only [turn, hr, heffects, hgoes', hq, if_neg Bool.false_ne_true, stepUser,
      Option.any_some]
    exact apply_ite World.actors _ _ _

/-- By its last step a user leaves the pool. -/
lemma turn_ends {u : User σ} (others : List (Actor σ)) {r : Run} (hr : w.run? i = some r)
    (hlaunched : u.isLaunched = false) (hended : u.isEnded = false)
    (hends : (w.stepUser r u).isEnded = true) :
    ∃ q, (w.turn (.user i u) others).run? i = some { q with pool := r.pool.deregister u.id } ∧
      r.Alike q ∧ (.deed .raise ∉ (u.step (w.viewOf r u)).2 → q.isRaised = r.isRaised) ∧
      (w.turn (.user i u) others).actors = others := by
  obtain ⟨hid, -, es, hes, heffects⟩ := User.carries_step (w.viewOf r u) hlaunched hended
  have hends' : (u.step (w.viewOf r u)).1.isEnded = true := hends
  rw [hends', if_pos rfl] at heffects
  obtain ⟨q, hq, hrq, hraised⟩ := foldl_inner (u := (u.step (w.viewOf r u)).1) hr hes
  have hleave := applyEffect_leave (u := (u.step (w.viewOf r u)).1) hq
  rw [hid, hrq.pool] at hleave
  refine ⟨q, ?_, hrq, fun hnot => hraised fun hmem => hnot ?_, ?_⟩
  · simp only [turn, hr, heffects, hends', if_true, List.foldl_append, List.foldl_cons,
      List.foldl_nil]
    exact hleave
  · rw [heffects]
    exact List.mem_append_left _ hmem
  · simp only [turn, hr, hends', if_true]

end World

end LoadTest
