import LoadTest.Proofs.Sleeping

/-!
# How long sessions take

In a run that nobody disturbs, the time that a callback takes is known from its routine and from
what it finds when it looks at the run: it is the sum of its sleeps. So is the time of a whole
session, from the set-up through the cycles with their hooks and pauses to the tear-down, whether
these succeed, fail or panic. The instant at which a user will have ended is known from where it
stands and from what it is still to find, and each step of the user keeps to it.
-/

namespace LoadTest

variable {σ : Type}

/-! ### Spells -/

/-- How long something has taken, and how it has returned, with what is left to be found by others.
-/
structure Stretch (σ : Type) where
  time : Millis
  result : Option (σ × Option String × List RunView)

/-- How long something takes and how it returns, where some views are to be found one by one. It
does not return if it panics, or if it looks and there is nothing left to be found. -/
abbrev Spell (σ : Type) : Type := List RunView → Stretch σ

namespace Spell

variable {p q : Spell σ} {d : Millis} {next last : σ → Option String → Spell σ}
  {found found' : List RunView}

/-- Return at once. -/
def done (state : σ) (failure : Option String) : Spell σ := fun found =>
  ⟨0, some (state, failure, found)⟩

/-- Do not return. -/
def halt : Spell σ := fun _ => ⟨0, none⟩

/-- Look, and go on with what is found. -/
def find (next : RunView → Spell σ) : Spell σ
  | [] => ⟨0, none⟩
  | v :: found => next v found

/-- Let some time pass first. -/
def after (p : Spell σ) (d : Millis) : Spell σ := fun found =>
  ⟨d + (p found).time, (p found).result⟩

/-- Go on with what has been returned, if it has been. -/
def andThen (p : Spell σ) (next : σ → Option String → Spell σ) : Spell σ := fun found =>
  match (p found).result with
  | none => p found
  | some (state, failure, left) => (next state failure).after (p found).time left

@[simp] lemma result_after : (p.after d found).result = (p found).result := rfl

@[simp] lemma after_zero : p.after 0 = p := by
  funext found
  simp [after]

lemma after_after (d e : Millis) : (p.after d).after e = p.after (e + d) := by
  funext found
  simp [after, Nat.add_assoc]

lemma andThen_eq_of_result {state : σ} {failure : Option String} {left : List RunView}
    (h : (p found).result = some (state, failure, left)) :
    p.andThen next found = (next state failure).after (p found).time left := by
  rw [andThen, h]

lemma andThen_eq_of_none (h : (p found).result = none) : p.andThen next found = p found := by
  rw [andThen, h]

lemma andThen_congr (h : p found = q found') : p.andThen next found = q.andThen next found' := by
  rw [andThen, andThen, h]

@[simp] lemma andThen_done (state : σ) (failure : Option String) :
    (done state failure).andThen next = next state failure := by
  funext found
  rw [andThen_eq_of_result (p := done state failure) rfl]
  exact congrFun after_zero found

@[simp] lemma halt_andThen : (halt : Spell σ).andThen next = halt := rfl

lemma find_andThen (f : RunView → Spell σ) :
    (find f).andThen next = find fun v => (f v).andThen next := by
  funext found
  cases found <;> rfl

lemma after_andThen : (p.after d).andThen next = (p.andThen next).after d := by
  funext found
  cases h : (p found).result with
  | none =>
    rw [andThen_eq_of_none (result_after.trans h), after, after, andThen_eq_of_none h]
  | some result =>
    have hnext : p.andThen next found = _ := andThen_eq_of_result h
    rw [andThen_eq_of_result (result_after.trans h)]
    show _ = (⟨d + (p.andThen next found).time, (p.andThen next found).result⟩ : Stretch σ)
    rw [hnext]
    exact (congrFun (after_after _ _) _).symm

lemma andThen_assoc :
    (p.andThen next).andThen last = p.andThen fun state failure =>
      (next state failure).andThen last := by
  funext found
  cases h : (p found).result with
  | none =>
    have hnext : p.andThen next found = p found := andThen_eq_of_none h
    rw [andThen_congr hnext, andThen_eq_of_none h, andThen_eq_of_none h]
  | some result =>
    rw [andThen_congr (andThen_eq_of_result h), andThen_eq_of_result h, after_andThen]

lemma andThen_done_right : (p.andThen fun state failure => done state failure) = p := by
  funext found
  cases h : (p found).result with
  | none => exact andThen_eq_of_none h
  | some result =>
    rw [andThen_eq_of_result h]
    show (⟨(p found).time, some result⟩ : Stretch σ) = p found
    rw [← h]

/-- Go on if there is no failure so far. -/
def unlessFailed (p : Spell σ) (next : σ → Spell σ) : Spell σ :=
  p.andThen fun state failure =>
    match failure with
    | some reason => .done state (some reason)
    | none => next state

lemma unlessFailed_after {next : σ → Spell σ} {state : σ} :
    ((done state none).after d).unlessFailed next = (next state).after d := by
  rw [unlessFailed, after_andThen, andThen_done]

end Spell

/-! ### Callbacks -/

/-- What a routine comes to within a run whose stop signal has not been raised. -/
def Routine.spell : Routine σ → Spell σ
  | .finish state failure => .done state failure
  | .panic _ => .halt
  | .sleep duration next => next.spell.after (min duration longestSleep)
  | .record _ next => next.spell
  | .look next => .find fun v => (next (some v)).spell
  | .raise next => (next (some true)).spell
  | .transact _ body next => body.spell.andThen fun state failure => (next state failure).spell

/-- Go on with what follows a transaction. -/
def Spell.leave (p : Spell σ) (t : OpenTransaction σ) : Spell σ :=
  p.andThen fun state failure => (t.next state failure).spell

namespace Activation

/-- What is left of a routine and of the transactions around it. -/
def spell (a : Activation σ) : Spell σ := a.opened.foldl Spell.leave a.routine.spell

/-- The instant at which the routine goes on. -/
def since (a : Activation σ) (now : Millis) : Millis := a.wakeAt.getD now

/-- What the routine finds by its next action. -/
def finding (a : Activation σ) (v : RunView) : List RunView :=
  match a.wakeAt, a.routine with
  | none, .look _ => [v]
  | _, _ => []

variable {a a' : Activation σ} {now : Millis} {v : RunView}

lemma foldl_after (p : Spell σ) (d : Millis) (ts : List (OpenTransaction σ)) :
    ts.foldl Spell.leave (p.after d) = (ts.foldl Spell.leave p).after d := by
  induction ts generalizing p with
  | nil => rfl
  | cons t ts ih => rw [List.foldl_cons, Spell.leave, Spell.after_andThen, ih]; rfl

lemma foldl_halt (ts : List (OpenTransaction σ)) :
    ts.foldl Spell.leave Spell.halt = Spell.halt := by
  induction ts with
  | nil => rfl
  | cons t ts ih => rw [List.foldl_cons, Spell.leave, Spell.halt_andThen, ih]

lemma foldl_find (f : RunView → Spell σ) (ts : List (OpenTransaction σ)) :
    ts.foldl Spell.leave (Spell.find f) = Spell.find fun v => ts.foldl Spell.leave (f v) := by
  induction ts generalizing f with
  | nil => rfl
  | cons t ts ih => rw [List.foldl_cons, Spell.leave, Spell.find_andThen, ih]; rfl

/-- A step of a routine that is not asleep, or whose sleep is just over, keeps to its spell. -/
theorem spell_step (hunraised : v.raised = false) (hawake : ∀ t, a.wakeAt = some t → t = now)
    (found : List RunView) :
    match (a.step now (some v)).1 with
    | .going a' =>
      a'.spell.after (a'.since now) found = a.spell.after (a.since now) (a.finding v ++ found)
    | .returned state failure =>
      a.wakeAt = none ∧ a.spell (a.finding v ++ found) = Spell.done state failure found
    | .panicked => a.wakeAt = none ∧ a.spell = .halt := by
  obtain ⟨routine, opened, wakeAt⟩ := a
  cases wakeAt with
  | some t =>
    obtain rfl := hawake t rfl
    rfl
  | none =>
    cases routine with
    | finish state failure =>
      cases opened with
      | nil => exact ⟨rfl, rfl⟩
      | cons t ts => simp [step, spell, since, finding, Routine.spell, Spell.leave]
    | panic reason => exact ⟨rfl, foldl_halt opened⟩
    | sleep d next =>
      cases d with
      | zero => simp [step, spell, since, finding, Routine.spell]
      | succ d =>
        have hspell : spell ⟨.sleep (d + 1) next, opened, none⟩ =
            (spell ⟨next, opened, none⟩).after (min (d + 1) longestSleep) := foldl_after ..
        show (spell ⟨next, opened, none⟩).after (wakeTime now (d + 1)) found = _
        rw [hspell, Spell.after_after]
        rfl
    | record label next => rfl
    | look next =>
      have hspell : spell ⟨.look next, opened, none⟩ =
          .find fun v => spell ⟨next (some v), opened, none⟩ := foldl_find ..
      rw [hspell]
      rfl
    | raise next => simp [step, spell, since, finding, Routine.spell, hunraised]
    | transact labels body next => rfl

end Activation

/-! ### Sessions -/

/-- What some callbacks of a cycle come to, one after another. Only a fatal failure keeps the others
from being called. -/
def callsSpell : List (Call σ) → σ → Spell σ
  | [], state => .done state none
  | call :: calls, state =>
    (call.run state).spell.andThen fun state failure =>
      match call.onFailure, failure with
      | .fatal, some reason => .done state (some reason)
      | _, _ => callsSpell calls state

/-- What is left of a cycle: some callbacks, and the pause behind them. -/
def restOfCycle (calls : List (Call σ)) (pause : Millis) (state : σ) : Spell σ :=
  (callsSpell calls state).unlessFailed fun state =>
    (Spell.done state none).after (min pause longestSleep)

namespace Template

/-- What some cycles come to, where so many have been completed before. A cycle that fails is the
last one. -/
def cyclesSpell (t : Template σ) (instanceNumber : Nat) : (left completed : Nat) → σ → Spell σ
  | 0, _, state => .done state none
  | left + 1, completed, state =>
    let task := t.select (t.word instanceNumber completed)
    (restOfCycle (t.cycle task) task.delayAfter state).unlessFailed
      (cyclesSpell t instanceNumber left (completed + 1))

/-- The last cycles of a session, and the tear-down after them, whether they have failed or not. -/
def closing (t : Template σ) (instanceNumber left completed : Nat) (state : σ) : Spell σ :=
  (t.cyclesSpell instanceNumber left completed state).andThen fun state _ =>
    (t.tearDown state).spell

end Template

lemma restOfCycle_nil {pause : Millis} {state : σ} :
    restOfCycle [] pause state = (Spell.done state none).after (min pause longestSleep) := by
  rw [restOfCycle, callsSpell, Spell.unlessFailed, Spell.andThen_done]

/-- How many cycles a user is to do whom nobody stops, unless that is not bounded. -/
def Lifecycle.cycles : Lifecycle → Nat
  | .regular => 1
  | .looped => 0
  | .cycled cycles => cycles.toNat

/-- What the session of an instance comes to: the set-up, the cycles and the tear-down. If the
instance cannot be made there is none, and if the set-up fails there is nothing else. -/
def Template.session (t : Template σ) (instanceNumber : Nat) (l : Lifecycle) : Spell σ :=
  match t.create instanceNumber with
  | .error _ => .halt
  | .panic _ => .halt
  | .ok state => (t.setUp state).spell.unlessFailed (t.closing instanceNumber l.cycles 0)

/-! ### Users on their way -/

/-- The user is in a session, and within the bound on its cycles. -/
def Phase.InBounds (l : Lifecycle) : Phase σ → Prop
  | .calling (.cycle completed _ _ _) _ => completed.toNat < l.cycles
  | .calling _ _ => True
  | .pausing _ completed _ => completed.toNat < l.cycles
  | .yielding _ completed => l ≠ .regular ∧ completed.toNat ≤ l.cycles
  | .deciding _ completed => l ≠ .regular ∧ completed.toNat ≤ l.cycles
  | _ => False

namespace User

variable (u : User σ)

/-- What is left of the session once some cycles have been completed. -/
def onwards (completed : Nat) (state : σ) : Spell σ :=
  u.template.closing u.instanceNumber (u.lifecycle.cycles - completed) completed state

/-- What is left of the session once a callback has returned. -/
def rest : Stage σ → σ → Option String → Spell σ
  | .setUp, state, none => u.onwards 0 state
  | .setUp, state, some reason => .done state (some reason)
  | .cycle completed call left pause, state, failure =>
    match call.onFailure, failure with
    | .fatal, some _ => (u.template.tearDown state).spell
    | _, _ =>
      ((restOfCycle left pause state).unlessFailed
        (u.template.cyclesSpell u.instanceNumber (u.lifecycle.cycles - (completed.toNat + 1))
          (completed.toNat + 1))).andThen fun state _ => (u.template.tearDown state).spell
  | .tearDown _, state, failure => .done state failure

/-- What is ahead of the user whom nobody stops, counted from the beginning of time. -/
def remainder (now : Millis) : Spell σ :=
  match u.phase with
  | .calling stage a => (a.spell.after (a.since now)).andThen (u.rest stage)
  | .pausing state completed wakeAt => (u.onwards (completed.toNat + 1) state).after wakeAt
  | .yielding state completed => (u.onwards completed.toNat state).after now
  | .deciding state completed => (u.onwards completed.toNat state).after now
  | _ => Spell.halt.after now

/-- The instant at which the user will have ended, if it finds certain views by then. -/
def endsAt (found : List RunView) (now : Millis) : Millis := (u.remainder now found).time

/-- What the user finds by its next step. -/
def finding (v : View) : List RunView :=
  match u.phase with
  | .calling _ a => a.finding v.run
  | _ => []

variable {u} {found : List RunView}

/-- What is left of a session with the next callback of a cycle. -/
lemma andThen_rest {call : Call σ} {left : List (Call σ)} {pause : Millis} (state : σ)
    (completed : UInt32) :
    (call.run state).spell.andThen (u.rest (.cycle completed call left pause)) =
      ((restOfCycle (call :: left) pause state).unlessFailed
        (u.template.cyclesSpell u.instanceNumber (u.lifecycle.cycles - (completed.toNat + 1))
          (completed.toNat + 1))).andThen fun state _ => (u.template.tearDown state).spell := by
  simp only [restOfCycle, callsSpell, Spell.unlessFailed, Spell.andThen_assoc]
  congr 1
  funext state failure
  obtain (rfl | ⟨what, hlogged⟩) | ⟨reason, rfl, hfatal⟩ := call.goesOn_or_fatal failure
  · simp [rest, restOfCycle, Spell.unlessFailed, Spell.andThen_assoc]
  · simp [rest, hlogged, restOfCycle, Spell.unlessFailed, Spell.andThen_assoc]
  · simp [rest, hfatal]

lemma rest_of_goesOn {call : Call σ} {left : List (Call σ)} {pause : Millis} {completed : UInt32}
    {state : σ} {failure : Option String}
    (h : failure = none ∨ ∃ what, call.onFailure = .logged what) :
    u.rest (.cycle completed call left pause) state failure =
      ((restOfCycle left pause state).unlessFailed
        (u.template.cyclesSpell u.instanceNumber (u.lifecycle.cycles - (completed.toNat + 1))
          (completed.toNat + 1))).andThen fun state _ => (u.template.tearDown state).spell := by
  obtain rfl | ⟨what, hlogged⟩ := h
  · simp [rest]
  · simp [rest, hlogged]

lemma rest_of_fatal {call : Call σ} {left : List (Call σ)} {pause : Millis} {completed : UInt32}
    {state : σ} {reason : String} (hfatal : call.onFailure = .fatal) :
    u.rest (.cycle completed call left pause) state (some reason) =
      (u.template.tearDown state).spell := by
  simp [rest, hfatal]

/-- What is ahead of a user that begins a callback. -/
lemma remainder_calling {stage : Stage σ} {r : Routine σ}
    (hphase : u.phase = .calling stage (.begin r))
    (now : Millis) : u.remainder now = (r.spell.andThen (u.rest stage)).after now := by
  rw [remainder, hphase, ← Spell.after_andThen]
  rfl

lemma remainder_tearDown (state : σ) (failure : Option String) (now : Millis) :
    (u.tearDown state failure).remainder now = (u.template.tearDown state).spell.after now := by
  rw [remainder_calling rfl]
  exact congrArg (Spell.after · now) Spell.andThen_done_right

lemma remainder_beginCycle {completed : UInt32} (hlt : completed.toNat < u.lifecycle.cycles)
    (state : σ) (now : Millis) :
    (u.beginCycle state completed).remainder now = (u.onwards completed.toNat state).after now := by
  have hleft : u.lifecycle.cycles - completed.toNat =
      u.lifecycle.cycles - (completed.toNat + 1) + 1 := by omega
  rw [remainder_calling rfl, onwards, hleft]
  exact congrArg (Spell.after · now) (andThen_rest state completed)

lemma remainder_endCycle {completed : UInt32} (hlt : completed.toNat < u.lifecycle.cycles)
    (state : σ) (now : Millis) :
    (u.endCycle state completed).remainder now = (u.onwards (completed.toNat + 1) state).after now ∧
      (u.endCycle state completed).phase.InBounds u.lifecycle := by
  cases hl : u.lifecycle with
  | regular =>
    rw [endCycle, hl]
    refine ⟨?_, trivial⟩
    simp only [remainder_tearDown, onwards, hl, Lifecycle.cycles]
    simp [Template.closing, Template.cyclesSpell]
  | looped => simp [hl, Lifecycle.cycles] at hlt
  | cycled limit =>
    rw [hl, Lifecycle.cycles] at hlt
    have hsucc := toNat_succ_of_lt (UInt32.lt_iff_toNat_lt.2 hlt)
    rw [endCycle, hl]
    refine ⟨?_, by simp, ?_⟩
    · show (u.onwards (completed + 1).toNat state).after now = _
      rw [hsucc]
    · rw [hsucc]
      exact hlt

/-- A user keeps to the instant of its end: it ends by a step at that instant, or goes on to it. -/
structure KeepsTo (u : User σ) (found : List RunView) (now : Millis) (ends : Millis) : Prop where
  ended : u.isEnded = true → ends = now
  goesOn : u.isEnded = false → u.phase.InBounds u.lifecycle ∧ u.endsAt found now = ends

lemma keepsTo_of_goesOn {now : Millis} {p : Spell σ} (hended : u.isEnded = false)
    (hbounds : u.phase.InBounds u.lifecycle) (hremainder : u.remainder now = p) :
    u.KeepsTo found now (p found).time :=
  ⟨fun h => by simp [h] at hended, fun _ => ⟨hbounds, by rw [endsAt, hremainder]⟩⟩

lemma keepsTo_of_ended {now ends : Millis} (hended : u.isEnded = true) (hends : ends = now) :
    u.KeepsTo found now ends :=
  ⟨fun _ => hends, fun h => by simp [h] at hended⟩

lemma keepsTo_tearDown (state : σ) (failure : Option String) (now : Millis) :
    (u.tearDown state failure).KeepsTo found now
      ((u.template.tearDown state).spell.after now found).time :=
  keepsTo_of_goesOn rfl trivial (u.remainder_tearDown state failure now)

lemma keepsTo_beginCycle {completed : UInt32} (hlt : completed.toNat < u.lifecycle.cycles)
    (state : σ) (now : Millis) :
    (u.beginCycle state completed).KeepsTo found now
      ((u.onwards completed.toNat state).after now found).time :=
  keepsTo_of_goesOn rfl hlt (u.remainder_beginCycle hlt state now)

lemma keepsTo_endCycle {completed : UInt32} (hlt : completed.toNat < u.lifecycle.cycles)
    (state : σ) (now : Millis) :
    (u.endCycle state completed).KeepsTo found now
      ((u.onwards (completed.toNat + 1) state).after now found).time := by
  obtain ⟨hremainder, hbounds⟩ := u.remainder_endCycle hlt state now
  have hlifecycle : (u.endCycle state completed).lifecycle = u.lifecycle := by
    rw [endCycle]
    split <;> rfl
  have hended : (u.endCycle state completed).isEnded = false := by
    rw [endCycle]
    split <;> rfl
  exact keepsTo_of_goesOn hended (hlifecycle ▸ hbounds) hremainder

/-- Once a callback has returned, the user goes on to what is left of its session. -/
lemma keepsTo_returned {now : Millis} {stage : Stage σ} {a : Activation σ}
    (hl : u.lifecycle ≠ .looped)
    (hbounds : (Phase.calling stage a).InBounds u.lifecycle) (state : σ) (failure : Option String) :
    (u.returned now stage state failure).1.KeepsTo found now
      ((u.rest stage state failure).after now found).time := by
  cases stage with
  | setUp =>
    cases failure with
    | some reason => exact keepsTo_of_ended rfl rfl
    | none =>
      cases hlifecycle : u.lifecycle with
      | regular =>
        simp only [returned, hlifecycle]
        exact keepsTo_beginCycle (by simp [hlifecycle, Lifecycle.cycles]) state now
      | looped => exact absurd hlifecycle hl
      | cycled limit =>
        simp only [returned, hlifecycle]
        exact keepsTo_of_goesOn rfl ⟨by simp [enter, hlifecycle], Nat.zero_le _⟩ rfl
  | cycle completed call left pause =>
    obtain hgoes | ⟨reason, rfl, hfatal⟩ := call.goesOn_or_fatal failure
    · obtain ⟨report, hreturned⟩ :=
        @returned_cycle σ u now state completed call left pause failure hgoes
      rw [hreturned, rest_of_goesOn hgoes]
      cases left with
      | cons next left =>
        refine keepsTo_of_goesOn rfl hbounds ?_
        rw [remainder_calling rfl]
        exact congrArg (Spell.after · now) (andThen_rest state completed)
      | nil =>
        rw [restOfCycle_nil, Spell.unlessFailed_after, Spell.after_andThen]
        by_cases hpause : pause = 0
        · simp only [hpause, if_true, Nat.zero_min, Spell.after_zero]
          exact keepsTo_endCycle hbounds state now
        · simp only [hpause, if_false]
          exact keepsTo_of_goesOn rfl hbounds (Spell.after_after _ _).symm
    · rw [returned_of_fatal hfatal, rest_of_fatal hfatal]
      exact keepsTo_tearDown state (some reason) now
  | tearDown first =>
    refine keepsTo_of_ended ?_ rfl
    cases first <;> cases failure <;> rfl

/-- A step of a callback keeps to the end of the session. -/
lemma keepsTo_step_of_calling {view : View} (hl : u.lifecycle ≠ .looped) {stage : Stage σ}
    {a : Activation σ} (hphase : u.phase = .calling stage a)
    (hbounds : u.phase.InBounds u.lifecycle) (hunaborted : view.aborted = false)
    (hunraised : view.run.raised = false) (hdue : ∀ t, a.wakeAt = some t → t = view.now) :
    (u.step view).1.KeepsTo found view.now (u.endsAt (u.finding view ++ found) view.now) := by
  rw [hphase] at hbounds
  have hkeeps := Activation.spell_step hunraised hdue found
  have hends : u.endsAt (u.finding view ++ found) view.now =
      ((a.spell.after (a.since view.now)).andThen (u.rest stage)
        (a.finding view.run ++ found)).time := by
    rw [endsAt, remainder, finding, hphase]
  rw [hends]
  cases hstep : (a.step view.now (some view.run)).1 with
  | going a' =>
    have hcut : u.isCutShort view = false := by
      simp [isCutShort, panics, hunaborted, hphase, hstep]
    simp only [hstep] at hkeeps
    rw [(step_of_going hphase hcut hstep).1, ← Spell.andThen_congr hkeeps]
    refine keepsTo_of_goesOn rfl ?_ rfl
    cases stage <;> exact hbounds
  | returned state failure =>
    simp only [hstep] at hkeeps
    rw [(step_of_returned hphase hstep).1, Spell.after_andThen, Spell.after,
      Spell.andThen_congr hkeeps.2, Spell.andThen_done, Activation.since, hkeeps.1]
    exact keepsTo_returned hl hbounds state failure
  | panicked =>
    simp only [hstep] at hkeeps
    have hcut : u.isCutShort view = true := by simp [isCutShort, panics, hphase, hstep]
    rw [hkeeps.2, Spell.after_andThen, Spell.halt_andThen, Activation.since, hkeeps.1]
    refine keepsTo_of_ended ?_ rfl
    rw [isEnded, (step_of_isCutShort hcut).1]

/-- A user that decides goes on with its next cycle as long as there is one left. -/
lemma keepsTo_decide {view : View} (hl : u.lifecycle ≠ .looped) {state : σ} {completed : UInt32}
    (hbounds : (Phase.deciding state completed).InBounds u.lifecycle)
    (hactive : view.active = true) (hunraised : view.run.raised = false) :
    (u.decide view state completed).1.KeepsTo found view.now
      ((u.onwards completed.toNat state).after view.now found).time := by
  cases hlifecycle : u.lifecycle with
  | regular => exact absurd hlifecycle hbounds.1
  | looped => exact absurd hlifecycle hl
  | cycled limit =>
    by_cases hlt : completed < limit
    · have hdone : u.isDone completed = false := by
        simp [isDone, hlifecycle, Lifecycle.limit?, hlt]
      rw [decide, if_pos (by simp [hactive, hunraised, hdone])]
      refine keepsTo_beginCycle ?_ state view.now
      rw [hlifecycle]
      exact UInt32.lt_iff_toNat_lt.1 hlt
    · have hdone : u.isDone completed = true := by
        simpa [isDone, hlifecycle, Lifecycle.limit?] using hlt
      have hleft : u.lifecycle.cycles - completed.toNat = 0 := by
        rw [hlifecycle]
        exact Nat.sub_eq_zero_of_le (UInt32.le_iff_toNat_le.1 (UInt32.not_lt.1 hlt))
      rw [decide, if_neg (by simp [hdone]), onwards, hleft, Template.closing,
        Template.cyclesSpell, Spell.andThen_done]
      exact keepsTo_tearDown state none view.now

/-- A step of a user whom nobody stops, at the instant at which its suspension is over. -/
theorem keepsTo_step {view : View} (hl : u.lifecycle ≠ .looped)
    (hbounds : u.phase.InBounds u.lifecycle) (hunaborted : view.aborted = false)
    (hactive : view.active = true) (hunraised : view.run.raised = false)
    (hdue : ∀ t, u.wakeAt? = some t → t = view.now) (found : List RunView) :
    (u.step view).1.KeepsTo found view.now (u.endsAt (u.finding view ++ found) view.now) := by
  cases hphase : u.phase with
  | launched => simp [hphase, Phase.InBounds] at hbounds
  | arrived => simp [hphase, Phase.InBounds] at hbounds
  | ended => simp [hphase, Phase.InBounds] at hbounds
  | calling stage a =>
    exact keepsTo_step_of_calling hl hphase hbounds hunaborted hunraised
      (by simpa [wakeAt?, hphase] using hdue)
  | pausing state completed wakeAt =>
    obtain rfl : wakeAt = view.now := hdue wakeAt (by simp [wakeAt?, hphase])
    rw [hphase] at hbounds
    have hcut : u.isCutShort view = false := by simp [isCutShort, panics, hunaborted, hphase]
    rw [(step_of_pausing hphase hcut).1, endsAt, remainder, finding, hphase]
    exact keepsTo_endCycle hbounds state view.now
  | yielding state completed =>
    rw [hphase] at hbounds
    have hcut : u.isCutShort view = false := by simp [isCutShort, panics, hunaborted, hphase]
    rw [(step_of_yielding hphase hcut).1, endsAt, remainder, finding, hphase]
    exact keepsTo_of_goesOn rfl hbounds rfl
  | deciding state completed =>
    rw [hphase] at hbounds
    rw [(step_of_deciding hphase).1, endsAt, remainder, finding, hphase]
    exact keepsTo_decide hl hbounds hactive hunraised

/-- A user begins its session as it gets its instance. -/
lemma keepsTo_arrived {view : View} (hphase : u.phase = .arrived) (found : List RunView) :
    (u.step view).1.KeepsTo found view.now
      ((u.template.session view.nextInstance u.lifecycle).after view.now found).time := by
  cases hcreate : u.template.create view.nextInstance with
  | error reason =>
    rw [(step_of_unmade hphase hcreate).1, Template.session, hcreate]
    exact keepsTo_of_ended rfl rfl
  | panic reason =>
    rw [(step_of_lost hphase hcreate).1, Template.session, hcreate]
    exact keepsTo_of_ended rfl rfl
  | ok state =>
    rw [(step_of_made hphase hcreate).1, Template.session, hcreate]
    refine keepsTo_of_goesOn rfl trivial ?_
    rw [remainder_calling rfl]
    refine congrArg (Spell.after · view.now) (congrArg (Spell.andThen _) ?_)
    funext state failure
    cases failure <;> rfl

/-- A user that is asleep does not end before it wakes up, and it makes no difference what time it
is by then. -/
lemma endsAt_of_asleep {t : Millis} (h : u.wakeAt? = some t) (found : List RunView)
    (now later : Millis) : t ≤ u.endsAt found now ∧ u.endsAt found later = u.endsAt found now := by
  rw [wakeAt?] at h
  cases hphase : u.phase with
  | calling stage a =>
    have hwake : a.wakeAt = some t := by simpa [hphase] using h
    simp [endsAt, remainder, hphase, Activation.since, hwake, Spell.after_andThen, Spell.after]
  | pausing state completed wakeAt =>
    obtain rfl : wakeAt = t := by simpa [hphase] using h
    simp [endsAt, remainder, hphase, Spell.after]
  | _ => simp [hphase] at h

end User

end LoadTest
