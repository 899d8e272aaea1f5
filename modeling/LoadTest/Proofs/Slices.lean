import LoadTest.Proofs.Course
import Mathlib.Logic.Relation

/-!
# What users do in one go

A user goes on step by step until it stops, wherever that may be. That does not last forever: every
routine is a finite tree, so a user comes to the end of its cycle, and past the last of its cycles
to its own end. Only from one cycle to the next could a user go on forever.
-/

namespace LoadTest

variable {σ : Type}

namespace User

/-- A step of a user by which it neither ends nor stops. -/
def GoesOn (stop : User σ → Bool) (u' u : User σ) : Prop :=
  ∃ v, u' = (u.step v).1 ∧ u'.isEnded = false ∧ stop u' = false

variable {stop : User σ → Bool} {u : User σ}

/-! ### Callbacks -/

/-- A user inside a callback goes on as the callback does, and then as it returns. -/
lemma acc_of_calling {stage : Stage σ} {a : Activation σ} (hphase : u.phase = .calling stage a)
    (hgoes : ∀ (v : View) a', (a.step v.now (some v.run)).1 = .going a' →
      Acc (GoesOn stop) (u.enter (.calling stage a')))
    (hreturns : ∀ (v : View) state failure,
      (a.step v.now (some v.run)).1 = .returned state failure →
      (u.returned v.now stage state failure).1.isEnded = false →
      stop (u.returned v.now stage state failure).1 = false →
      Acc (GoesOn stop) (u.returned v.now stage state failure).1) :
    Acc (GoesOn stop) u := by
  refine Acc.intro u ?_
  rintro _ ⟨v, rfl, hended, hgo⟩
  cases hcut : u.isCutShort v with
  | true => simp [isEnded, (step_of_isCutShort hcut).1] at hended
  | false =>
    cases hstep : (a.step v.now (some v.run)).1 with
    | going a' =>
      rw [(step_of_going hphase hcut hstep).1]
      exact hgoes v a' hstep
    | returned state failure =>
      rw [(step_of_returned hphase hstep).1] at hended hgo ⊢
      exact hreturns v state failure hstep hended hgo
    | panicked => simp [isCutShort, panics, hphase, hstep] at hcut

/-- A user asleep inside a callback does not go on forever, if it does not once it is awake. -/
lemma acc_of_asleep {stage : Stage σ} {a : Activation σ} (hphase : u.phase = .calling stage a)
    (hasleep : a.wakeAt.isSome = true)
    (hawake : Acc (GoesOn stop) (u.enter (.calling stage { a with wakeAt := none }))) :
    Acc (GoesOn stop) u := by
  have hstep : ∀ now run, (a.step now run).1 = .going { a with wakeAt := none } := fun now run =>
    Activation.step_of_asleep hasleep
  refine acc_of_calling hphase (fun v a' h => ?_) fun v state failure h => ?_
  · rw [hstep] at h
    cases h
    exact hawake
  · exact absurd ((hstep _ _).symm.trans h) (by simp)

/-- A user inside a callback does not go on forever, if it does not once only the end of the
callback is left. -/
lemma acc_of_routine {stage : Stage σ} (r : Routine σ) {opened : List (OpenTransaction σ)}
    (hphase : u.phase = .calling stage ⟨r, opened, none⟩)
    (hfinish : ∀ state failure,
      Acc (GoesOn stop) (u.enter (.calling stage ⟨.finish state failure, opened, none⟩))) :
    Acc (GoesOn stop) u := by
  -- The induction is on the tree: a step goes down it, and a transaction goes on with a subtree.
  induction r generalizing u opened with
  | finish state failure =>
    have hu : u.enter (.calling stage ⟨.finish state failure, opened, none⟩) = u := by
      rw [enter, ← hphase]
    exact hu ▸ hfinish state failure
  | panic reason =>
    refine acc_of_calling hphase (fun v a' h => ?_) fun v state failure h => ?_
    · exact absurd h (by simp [Activation.step])
    · exact absurd h (by simp [Activation.step])
  | sleep d next ih =>
    refine acc_of_calling hphase (fun v a' h => ?_) fun v state failure h => ?_
    · cases d with
      | zero =>
        cases h
        exact ih rfl hfinish
      | succ d =>
        cases h
        exact acc_of_asleep rfl rfl (ih rfl hfinish)
    · cases d <;> cases h
  | record label next ih =>
    refine acc_of_calling hphase (fun v a' h => ?_) fun v state failure h => ?_
    · cases h
      exact ih rfl hfinish
    · cases h
  | look next ih =>
    refine acc_of_calling hphase (fun v a' h => ?_) fun v state failure h => ?_
    · cases h
      exact ih _ rfl hfinish
    · cases h
  | raise next ih =>
    refine acc_of_calling hphase (fun v a' h => ?_) fun v state failure h => ?_
    · cases h
      exact ih _ rfl hfinish
    · cases h
  | transact labels body next ihbody ih =>
    refine acc_of_calling hphase (fun v a' h => ?_) fun v state failure h => ?_
    · cases h
      refine ihbody rfl fun state failure => ?_
      refine acc_of_calling rfl (fun v a' h => ?_) fun v state failure h => ?_
      · cases h
        exact ih state failure rfl hfinish
      · cases h
    · cases h

lemma acc_of_finish {stage : Stage σ} (opened : List (OpenTransaction σ)) {state : σ}
    {failure : Option String}
    (hphase : u.phase = .calling stage ⟨.finish state failure, opened, none⟩)
    (hreturns : ∀ now state failure, (u.returned now stage state failure).1.isEnded = false →
      stop (u.returned now stage state failure).1 = false →
      Acc (GoesOn stop) (u.returned now stage state failure).1) : Acc (GoesOn stop) u := by
  induction opened generalizing u state failure with
  | nil =>
    refine acc_of_calling hphase (fun v a' h => ?_) fun v state failure _ => ?_
    · cases h
    · exact hreturns v.now state failure
  | cons t ts ih =>
    refine acc_of_calling hphase (fun v a' h => ?_) fun v state failure h => ?_
    · cases h
      exact acc_of_routine _ rfl fun state failure => ih rfl hreturns
    · cases h

/-- A user inside a callback does not go on forever, if it does not once the callback returns. -/
lemma acc_of_callback {stage : Stage σ} {a : Activation σ} (hphase : u.phase = .calling stage a)
    (hreturns : ∀ now state failure, (u.returned now stage state failure).1.isEnded = false →
      stop (u.returned now stage state failure).1 = false →
      Acc (GoesOn stop) (u.returned now stage state failure).1) : Acc (GoesOn stop) u := by
  have hawake : ∀ u' : User σ, (∀ p, u'.enter p = u.enter p) →
      u'.phase = .calling stage ⟨a.routine, a.opened, none⟩ → Acc (GoesOn stop) u' := by
    intro u' hu' hphase'
    refine acc_of_routine a.routine hphase' fun state failure => ?_
    rw [hu']
    exact acc_of_finish a.opened rfl hreturns
  cases hwake : a.wakeAt with
  | none => exact hawake u (fun _ => rfl) (hphase.trans (by rw [← hwake]))
  | some t => exact acc_of_asleep hphase (by rw [hwake]; rfl) (hawake _ (fun _ => rfl) rfl)

/-! ### Stages -/

lemma acc_of_tearDown {first : Option String} {a : Activation σ}
    (hphase : u.phase = .calling (.tearDown first) a) : Acc (GoesOn stop) u := by
  refine acc_of_callback hphase fun now state failure hended _ => ?_
  cases first <;> cases failure <;> cases hended

section Cycles

variable {completed : UInt32}

lemma acc_of_endCycle
    (hyield : u.lifecycle ≠ .regular → ∀ state,
      stop (u.enter (.yielding state (completed + 1))) = false →
        Acc (GoesOn stop) (u.enter (.yielding state (completed + 1))))
    {state : σ} (hgo : stop (u.endCycle state completed) = false) :
    Acc (GoesOn stop) (u.endCycle state completed) := by
  revert hgo
  rw [endCycle]
  split
  next => exact fun _ => acc_of_tearDown rfl
  next hregular => exact hyield hregular state

lemma acc_of_pausing {state : σ} {wakeAt : Millis}
    (hphase : u.phase = .pausing state completed wakeAt)
    (hyield : u.lifecycle ≠ .regular → ∀ state,
      stop (u.enter (.yielding state (completed + 1))) = false →
        Acc (GoesOn stop) (u.enter (.yielding state (completed + 1)))) : Acc (GoesOn stop) u := by
  refine Acc.intro _ ?_
  rintro _ ⟨v, rfl, hended, hgo⟩
  cases hcut : u.isCutShort v with
  | true => simp [isEnded, (step_of_isCutShort hcut).1] at hended
  | false =>
    rw [(step_of_pausing hphase hcut).1] at hgo ⊢
    exact acc_of_endCycle hyield hgo

lemma acc_of_cycle {call : Call σ} {left : List (Call σ)} {pause : Millis} {a : Activation σ}
    (hphase : u.phase = .calling (.cycle completed call left pause) a)
    (hyield : u.lifecycle ≠ .regular → ∀ state,
      stop (u.enter (.yielding state (completed + 1))) = false →
        Acc (GoesOn stop) (u.enter (.yielding state (completed + 1)))) : Acc (GoesOn stop) u := by
  induction left generalizing u call a with
  | nil =>
    refine acc_of_callback hphase fun now state failure hended hgo => ?_
    rcases call.goesOn_or_fatal failure with hgoes | ⟨reason, rfl, hfatal⟩
    · obtain ⟨report, hreturned⟩ :=
        @returned_cycle σ u now state completed call [] pause failure hgoes
      rw [hreturned] at hgo ⊢
      by_cases hpause : pause = 0
      · simp only [hpause, if_true] at hgo ⊢
        exact acc_of_endCycle hyield hgo
      · simp only [hpause, if_false]
        exact acc_of_pausing rfl hyield
    · rw [returned_of_fatal hfatal]
      exact acc_of_tearDown rfl
  | cons next left ih =>
    refine acc_of_callback hphase fun now state failure hended hgo => ?_
    rcases call.goesOn_or_fatal failure with hgoes | ⟨reason, rfl, hfatal⟩
    · obtain ⟨report, hreturned⟩ :=
        @returned_cycle σ u now state completed call (next :: left) pause failure hgoes
      rw [hreturned]
      exact ih rfl hyield
    · rw [returned_of_fatal hfatal]
      exact acc_of_tearDown rfl

lemma acc_of_deciding {state : σ} (hphase : u.phase = .deciding state completed)
    (hyield : u.isDone completed = false → u.lifecycle ≠ .regular → ∀ state,
      stop (u.enter (.yielding state (completed + 1))) = false →
        Acc (GoesOn stop) (u.enter (.yielding state (completed + 1)))) : Acc (GoesOn stop) u := by
  refine Acc.intro u ?_
  rintro _ ⟨v, rfl, hended, hgo⟩
  rw [(step_of_deciding hphase).1] at hended hgo ⊢
  revert hended hgo
  rw [decide]
  split_ifs with hgoes
  · intro _ _
    obtain ⟨word, hbegin⟩ := u.phase_beginCycle state completed
    simp only [Bool.and_eq_true, Bool.not_eq_true'] at hgoes
    exact acc_of_cycle hbegin (hyield hgoes.2)
  · exact fun _ _ => acc_of_tearDown rfl

lemma acc_of_yielding {state : σ} (hphase : u.phase = .yielding state completed)
    (hdeciding : stop (u.enter (.deciding state completed)) = false →
      Acc (GoesOn stop) (u.enter (.deciding state completed))) : Acc (GoesOn stop) u := by
  refine Acc.intro _ ?_
  rintro _ ⟨v, rfl, hended, hgo⟩
  cases hcut : u.isCutShort v with
  | true => simp [isEnded, (step_of_isCutShort hcut).1] at hended
  | false =>
    rw [(step_of_yielding hphase hcut).1] at hgo ⊢
    exact hdeciding hgo

end Cycles

lemma acc_of_setUp {a : Activation σ} (hphase : u.phase = .calling .setUp a)
    (hdeciding : ∀ state, stop (u.enter (.deciding state 0)) = false →
      Acc (GoesOn stop) (u.enter (.deciding state 0))) : Acc (GoesOn stop) u := by
  refine acc_of_callback hphase fun now state failure hended hgo => ?_
  cases failure with
  | some reason => cases hended
  | none =>
    revert hgo
    by_cases hregular : u.lifecycle = .regular
    · rw [returned_setUp_of_regular hregular]
      intro _
      obtain ⟨word, hbegin⟩ := u.phase_beginCycle state 0
      exact acc_of_cycle hbegin fun hne => absurd hregular hne
    · rw [returned_setUp_of_ne_regular hregular]
      exact hdeciding state

lemma acc_of_arrived (hphase : u.phase = .arrived)
    (hdeciding : ∀ u' : User σ, u'.template = u.template → u'.lifecycle = u.lifecycle →
      u'.isDeciding → stop u' = false → Acc (GoesOn stop) u') : Acc (GoesOn stop) u := by
  refine Acc.intro _ ?_
  rintro _ ⟨v, rfl, hended, -⟩
  cases hcreate : u.template.create v.nextInstance with
  | error reason =>
    rw [(step_of_unmade hphase hcreate).1] at hended
    cases hended
  | panic reason =>
    rw [(step_of_lost hphase hcreate).1] at hended
    cases hended
  | ok state =>
    rw [(step_of_made hphase hcreate).1]
    exact acc_of_setUp rfl fun state => hdeciding _ rfl rfl rfl

/-- A user does not go on forever, if it does not once it is to decide on a cycle. -/
lemma acc_of_checks
    (hdeciding : ∀ u' : User σ, u'.template = u.template → u'.lifecycle = u.lifecycle →
      u'.isDeciding → stop u' = false → Acc (GoesOn stop) u') : Acc (GoesOn stop) u := by
  have hyield : ∀ state completed,
      stop (u.enter (.yielding state completed)) = false →
        Acc (GoesOn stop) (u.enter (.yielding state completed)) :=
    fun state completed _ => acc_of_yielding rfl (hdeciding _ rfl rfl rfl)
  cases hphase : u.phase with
  | launched =>
    refine Acc.intro _ ?_
    rintro _ ⟨v, rfl, -, -⟩
    rw [(step_of_launched hphase).1]
    exact acc_of_arrived rfl hdeciding
  | arrived => exact acc_of_arrived hphase hdeciding
  | calling stage a =>
    cases stage with
    | setUp => exact acc_of_setUp hphase fun state => hdeciding _ rfl rfl rfl
    | cycle completed call left pause => exact acc_of_cycle hphase fun _ state => hyield state _
    | tearDown first => exact acc_of_tearDown hphase
  | pausing state completed wakeAt => exact acc_of_pausing hphase fun _ state => hyield state _
  | yielding state completed => exact acc_of_yielding hphase (hdeciding _ rfl rfl rfl)
  | deciding state completed => exact acc_of_deciding hphase fun _ _ state => hyield state _
  | ended =>
    refine Acc.intro _ ?_
    rintro _ ⟨v, rfl, hended, -⟩
    rw [(step_of_ended hphase).1, isEnded, hphase] at hended
    cases hended

/-! ### Slices -/

/-- A user that is not suspended is so after some steps. -/
theorem acc_of_isSuspended (u : User σ) : Acc (GoesOn isSuspended) u := by
  refine acc_of_checks fun u' _ _ hdeciding _ => ?_
  cases hphase : u'.phase with
  | deciding state completed => exact acc_of_deciding hphase fun _ _ state hgo => by cases hgo
  | _ => simp [isDeciding, hphase] at hdeciding

end User

end LoadTest
