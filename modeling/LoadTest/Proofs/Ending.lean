import LoadTest.Proofs.Course

/-!
# Lives come to an end

Every routine is a finite tree, so every callback comes to an end, and every cycle. A user that is
stopped at some moment, or has a bound on its cycles, therefore ends.
-/

namespace LoadTest

variable {σ : Type}

/-- A callback outside a cycle leads into one only if it is the set-up of a regular user, which
begins its cycle then. -/
lemma User.begins_of_returned {u : User σ} {stage : Stage σ} {a : Activation σ} {now : Millis}
    {state : σ} {failure : Option String}
    (hbefore : (u.enter (.calling stage a)).isCycling = false)
    (hafter : (u.returned now stage state failure).1.isCycling) :
    u.lifecycle = .regular ∧ (u.returned now stage state failure).1 = u.beginCycle state 0 := by
  cases stage with
  | setUp =>
    cases failure with
    | some reason => cases hafter
    | none =>
      cases hl : u.lifecycle with
      | regular => exact ⟨rfl, by simp [returned, hl]⟩
      | _ => simp [returned, isCycling, hl] at hafter
  | cycle completed call left pause => cases hbefore
  | tearDown first => cases first <;> cases failure <;> cases hafter

/-- A user that comes into a cycle begins it. It is a regular user, or it has decided to go on since
neither it nor its run has been asked to stop. -/
lemma User.begins_cases {u : User σ} {v : View} (hbefore : u.isCycling = false)
    (hafter : (u.step v).1.isCycling) :
    ∃ state completed, (u.step v).1 = u.beginCycle state completed ∧
      (u.lifecycle = .regular ∨ v.active = true ∧ v.run.raised = false) := by
  cases hcut : u.isCutShort v with
  | true =>
    rw [isCycling, (step_of_isCutShort hcut).1] at hafter
    cases hafter
  | false =>
    cases hphase : u.phase with
    | launched =>
      rw [(step_of_launched hphase).1] at hafter
      cases hafter
    | arrived =>
      cases hcreate : u.template.create v.nextInstance with
      | error reason =>
        rw [(step_of_unmade hphase hcreate).1] at hafter
        cases hafter
      | panic reason =>
        rw [(step_of_lost hphase hcreate).1] at hafter
        cases hafter
      | ok state =>
        rw [(step_of_made hphase hcreate).1] at hafter
        cases hafter
    | calling stage a =>
      rw [isCycling, hphase] at hbefore
      cases hstep : (a.step v.now (some v.run)).1 with
      | going a' =>
        rw [(step_of_going hphase hcut hstep).1] at hafter
        cases stage <;> simp [isCycling] at hbefore hafter
      | returned state failure =>
        rw [(step_of_returned hphase hstep).1] at hafter ⊢
        obtain ⟨hl, hu⟩ := begins_of_returned (a := a) hbefore hafter
        exact ⟨state, 0, hu, .inl hl⟩
      | panicked => simp [isCutShort, panics, hphase, hstep] at hcut
    | pausing state completed wakeAt => simp [isCycling, hphase] at hbefore
    | yielding state completed =>
      rw [(step_of_yielding hphase hcut).1] at hafter
      cases hafter
    | deciding state completed =>
      rw [(step_of_deciding hphase).1, decide] at hafter ⊢
      split_ifs at hafter ⊢ with hgoes
      · simp only [Bool.and_eq_true, Bool.not_eq_true'] at hgoes
        exact ⟨state, completed, rfl, .inr hgoes.1⟩
      · cases hafter
    | ended =>
      rw [(step_of_ended hphase).1, isCycling, hphase] at hafter
      cases hafter

/-- A user that goes on by itself begins a cycle only if neither it nor its run has been asked to
stop. -/
lemma User.going_of_begins {u : User σ} {v : View} (hl : u.lifecycle ≠ .regular)
    (hbefore : u.isCycling = false) (hafter : (u.step v).1.isCycling) :
    v.active = true ∧ v.run.raised = false := by
  obtain ⟨-, -, -, hgoing⟩ := begins_cases hbefore hafter
  exact hgoing.resolve_left hl

namespace Surroundings

variable {s : Surroundings} {u : User σ} {k : Nat}

/-- The user ends after some number of steps. -/
def Ends (s : Surroundings) (u : User σ) : Prop := ∃ k, (s.after u k).phase = .ended

lemma ends_of_cutsShort (h : s.cutsShort u k) : s.Ends u :=
  ⟨k + 1, (s.over_of_cutsShort h (Nat.lt_succ_self k)).1⟩

/-! ### Callbacks -/

/-- A callback that goes on at a step, unless that cuts the life short. -/
lemma ends_of_going {stage : Stage σ} {a a' : Activation σ}
    (hphase : (s.after u k).phase = .calling stage a)
    (hstep : (a.step (s.view k).now (some (s.view k).run)).1 = .going a')
    (hnext : (s.after u (k + 1)).phase = .calling stage a' → s.Ends u) : s.Ends u := by
  cases hcut : s.cutsShort u k with
  | true => exact ends_of_cutsShort hcut
  | false => exact hnext (by rw [after, (User.step_of_going hphase hcut hstep).1]; rfl)

/-- A sleeper wakes up. -/
lemma ends_of_asleep {stage : Stage σ} {r : Routine σ} {opened : List (OpenTransaction σ)}
    {wakeAt : Option Millis} (hphase : (s.after u k).phase = .calling stage ⟨r, opened, wakeAt⟩)
    (hawake : ∀ j ≥ k, (s.after u j).phase = .calling stage ⟨r, opened, none⟩ → s.Ends u) :
    s.Ends u := by
  cases wakeAt with
  | none => exact hawake k (Nat.le_refl k) hphase
  | some t => exact ends_of_going hphase rfl (hawake (k + 1) (Nat.le_succ k))

/-- A user inside a callback ends, if it does once only the end of the callback is left. -/
lemma ends_of_routine {stage : Stage σ} (r : Routine σ) {opened : List (OpenTransaction σ)}
    (hphase : (s.after u k).phase = .calling stage ⟨r, opened, none⟩)
    (hfinish : ∀ j ≥ k, ∀ state failure,
      (s.after u j).phase = .calling stage ⟨.finish state failure, opened, none⟩ → s.Ends u) :
    s.Ends u := by
  have hlater : ∀ j ≥ k + 1, ∀ state failure,
      (s.after u j).phase = .calling stage ⟨.finish state failure, opened, none⟩ → s.Ends u :=
    fun j hj => hfinish j (Nat.le_of_succ_le hj)
  -- The induction is on the tree: a step goes down it, and a transaction goes on with a subtree.
  induction r generalizing k opened with
  | finish state failure => exact hfinish k (Nat.le_refl k) state failure hphase
  | panic reason =>
    refine ends_of_cutsShort (k := k) ?_
    simp [cutsShort, User.isCutShort, User.panics, hphase, Activation.step]
  | sleep d next ih =>
    cases d with
    | zero =>
      exact ends_of_going hphase rfl fun h => ih h hlater fun j hj => hlater j (by omega)
    | succ d =>
      refine ends_of_going hphase rfl fun h => ends_of_asleep h fun j hj h => ?_
      exact ih h (fun i hi => hlater i (by omega)) fun i hi => hlater i (by omega)
  | record label next ih =>
    exact ends_of_going hphase rfl fun h => ih h hlater fun j hj => hlater j (by omega)
  | look next ih =>
    exact ends_of_going hphase rfl fun h => ih _ h hlater fun j hj => hlater j (by omega)
  | raise next ih =>
    exact ends_of_going hphase rfl fun h => ih _ h hlater fun j hj => hlater j (by omega)
  | transact labels body next ihbody ih =>
    refine ends_of_going hphase rfl fun h => ?_
    have hbody : ∀ j ≥ k + 1, ∀ state failure, (s.after u j).phase =
        .calling stage ⟨.finish state failure, ⟨labels, (s.view k).now, next⟩ :: opened, none⟩ →
          s.Ends u := fun j hj state failure h =>
      ends_of_going h rfl fun h => ih state failure h (fun i hi => hlater i (by omega))
        fun i hi => hlater i (by omega)
    exact ihbody h hbody fun j hj => hbody j (by omega)

lemma ends_of_callback {stage : Stage σ} {r : Routine σ}
    (hphase : (s.after u k).phase = .calling stage (.begin r))
    (hreturn : ∀ j ≥ k, ∀ now state failure,
      s.after u (j + 1) = ((s.after u j).returned now stage state failure).1 → s.Ends u) :
    s.Ends u := by
  refine ends_of_routine r hphase fun j hj state failure h => ?_
  exact hreturn j hj _ state failure (congrArg Prod.fst (User.step_of_returned h rfl).1)

/-! ### Stages -/

lemma ends_of_tearDown {first : Option String} {r : Routine σ}
    (hphase : (s.after u k).phase = .calling (.tearDown first) (.begin r)) : s.Ends u := by
  refine ends_of_callback hphase fun j _ now state failure h => ⟨j + 1, ?_⟩
  rw [h]
  cases first <;> cases failure <;> rfl

/-- A user whose cycle has succeeded ends, if it does when it is to decide on the next one. -/
lemma ends_of_endCycle {u' : User σ} {state : σ} {completed : UInt32}
    (hu : s.after u k = u'.endCycle state completed)
    (hnext : ∀ j > k, ∀ state, (s.after u j).phase = .deciding state (completed + 1) → s.Ends u) :
    s.Ends u := by
  by_cases hl : u'.lifecycle = .regular
  · exact ends_of_tearDown (by rw [hu, User.endCycle_of_regular hl]; rfl)
  · have hphase : (s.after u k).phase = .yielding state (completed + 1) := by
      rw [hu, User.endCycle_of_ne_regular hl]
      rfl
    cases hcut : s.cutsShort u k with
    | true => exact ends_of_cutsShort hcut
    | false =>
      refine hnext (k + 1) (Nat.lt_succ_self k) state ?_
      rw [after, (User.step_of_yielding hphase hcut).1]
      rfl

/-- A user inside a cycle ends, if it does when it is to decide on the next one. -/
lemma ends_of_cycle {completed : UInt32} {call : Call σ} {left : List (Call σ)} {pause : Millis}
    {r : Routine σ} (hphase : (s.after u k).phase = .calling (.cycle completed call left pause)
      (.begin r))
    (hnext : ∀ j > k, ∀ state, (s.after u j).phase = .deciding state (completed + 1) → s.Ends u) :
    s.Ends u := by
  induction left generalizing k call r with
  | nil =>
    refine ends_of_callback hphase fun j hj now state failure h => ?_
    rcases call.goesOn_or_fatal failure with hgoes | ⟨reason, rfl, hfatal⟩
    · obtain ⟨report, hreturned⟩ := User.returned_cycle (u := s.after u j) hgoes
      rw [hreturned] at h
      by_cases hpause : pause = 0
      · simp only [hpause, if_true] at h
        exact ends_of_endCycle h fun i hi => hnext i (by omega)
      · simp only [hpause, if_false] at h
        have hpausing : (s.after u (j + 1)).phase =
            .pausing state completed (wakeTime now pause) := by
          rw [h]
          rfl
        cases hcut : s.cutsShort u (j + 1) with
        | true => exact ends_of_cutsShort hcut
        | false =>
          refine ends_of_endCycle (k := j + 2)
            (congrArg Prod.fst (User.step_of_pausing hpausing hcut).1) fun i hi => ?_
          exact hnext i (by omega)
    · rw [User.returned_of_fatal hfatal] at h
      exact ends_of_tearDown (by rw [h]; rfl)
  | cons next left ih =>
    refine ends_of_callback hphase fun j hj now state failure h => ?_
    rcases call.goesOn_or_fatal failure with hgoes | ⟨reason, rfl, hfatal⟩
    · obtain ⟨report, hreturned⟩ := User.returned_cycle (u := s.after u j) hgoes
      rw [hreturned] at h
      exact ih (by rw [h]; rfl) fun i hi => hnext i (by omega)
    · rw [User.returned_of_fatal hfatal] at h
      exact ends_of_tearDown (by rw [h]; rfl)

/-- A user that is to decide ends, if some rank falls with each cycle that it decides for. -/
lemma ends_of_deciding (rank : Nat → UInt32 → Nat)
    (hrank : ∀ k completed, (s.view k).active → (s.view k).run.raised = false →
      u.isDone completed = false → ∀ j > k, rank j (completed + 1) < rank k completed)
    (hfits : u.phase.Fits u.lifecycle) {state : σ} {completed : UInt32}
    (hphase : (s.after u k).phase = .deciding state completed) : s.Ends u := by
  induction hr : rank k completed using Nat.strongRecOn generalizing k state completed with
  | ind n ih =>
    obtain ⟨htemplate, hlifecycle, -⟩ := s.after_keeps hfits k
    have hstep : s.after u (k + 1) = ((s.after u k).decide (s.view k) state completed).1 :=
      congrArg Prod.fst (User.step_of_deciding hphase).1
    rw [User.decide] at hstep
    split_ifs at hstep with hgoes
    · obtain ⟨⟨hactive, hraised⟩, hdone⟩ : ((s.view k).active = true ∧
          (s.view k).run.raised = false) ∧ (s.after u k).isDone completed = false := by
        simpa using hgoes
      have hdone' : u.isDone completed = false := by
        rw [← hdone, User.isDone, User.isDone, hlifecycle]
      obtain ⟨word, hbegin⟩ := (s.after u k).phase_beginCycle state completed
      refine ends_of_cycle (k := k + 1) (by rw [hstep]; exact hbegin) fun j hj state h => ?_
      refine ih _ ?_ h rfl
      rw [← hr]
      exact hrank k completed hactive hraised hdone' j (by omega)
    · exact ends_of_tearDown (by rw [hstep]; rfl)

lemma ends_of_setUp (hfits : u.phase.Fits u.lifecycle) {r : Routine σ}
    (hphase : (s.after u k).phase = .calling .setUp (.begin r))
    (hdeciding : u.lifecycle ≠ .regular → ∀ j state completed,
      (s.after u j).phase = .deciding state completed → s.Ends u) : s.Ends u := by
  refine ends_of_callback hphase fun j hj now state failure h => ?_
  cases failure with
  | some reason => exact ⟨j + 1, by rw [h]; rfl⟩
  | none =>
    obtain ⟨-, hlifecycle, -⟩ := s.after_keeps hfits j
    by_cases hl : u.lifecycle = .regular
    · have hu : s.after u (j + 1) = (s.after u j).beginCycle state 0 := by
        rw [h, User.returned_setUp_of_regular (hlifecycle.trans hl)]
      obtain ⟨word, hbegin⟩ := (s.after u j).phase_beginCycle state 0
      refine ends_of_cycle (k := j + 1) (by rw [hu]; exact hbegin) fun i hi state h => ?_
      -- A regular user never comes to decide.
      obtain ⟨-, -, hnever⟩ := s.after_keeps hfits i
      rw [h] at hnever
      exact absurd hl hnever
    · refine hdeciding hl (j + 1) state 0 ?_
      rw [h, User.returned_setUp_of_ne_regular fun hmode => hl (hlifecycle.symm.trans hmode)]
      rfl

/-- A user that decides on its cycles ends if they are bounded, or if it or its run is asked to
stop. -/
lemma ends_of_stop (hfits : u.phase.Fits u.lifecycle) (hl : u.lifecycle ≠ .regular)
    (hstop : u.lifecycle = .looped → s.stop?.isSome ∨ s.raise?.isSome) {state : σ}
    {completed : UInt32} (hphase : (s.after u k).phase = .deciding state completed) :
    s.Ends u := by
  have hmoment : ∀ m, (∀ j, (s.view j).active → (s.view j).run.raised = false → j < m) →
      s.Ends u := by
    intro m hm
    refine ends_of_deciding (fun j _ => m - j) (fun j _ hactive hraised _ i hi => ?_) hfits hphase
    have := hm j hactive hraised
    show m - i < m - j
    omega
  cases hlifecycle : u.lifecycle with
  | regular => exact absurd hlifecycle hl
  | looped =>
    rcases hstop hlifecycle with h | h
    · obtain ⟨m, hm⟩ := Option.isSome_iff_exists.1 h
      exact hmoment m fun j hactive _ => by simpa [view, isPast, hm] using hactive
    · obtain ⟨m, hm⟩ := Option.isSome_iff_exists.1 h
      exact hmoment m fun j _ hraised => by simpa [view, isPast, hm] using hraised
  | cycled limit =>
    refine ends_of_deciding (fun _ completed => limit.toNat - completed.toNat)
      (fun j completed _ _ hdone i _ => ?_) hfits hphase
    have hlt : completed < limit := by
      simpa [User.isDone, hlifecycle, Lifecycle.limit?] using hdone
    have := UInt32.lt_iff_toNat_lt.1 hlt
    show limit.toNat - (completed + 1).toNat < limit.toNat - completed.toNat
    rw [User.toNat_succ_of_lt hlt]
    omega

/-- A user that is launched ends, if its cycles are bounded or it or its run is asked to stop. -/
theorem ends_of_launched (hphase : u.phase = .launched)
    (hstop : u.lifecycle = .looped → s.stop?.isSome ∨ s.raise?.isSome) : s.Ends u := by
  have hfits : u.phase.Fits u.lifecycle := by
    rw [hphase]
    trivial
  have harrived : (s.after u 1).phase = .arrived := by
    show (u.step (s.view 0)).1.phase = .arrived
    rw [(User.step_of_launched hphase).1]
  cases hcreate : (s.after u 1).template.create (s.view 1).nextInstance with
  | error reason =>
    refine ⟨2, ?_⟩
    rw [after, (User.step_of_unmade harrived hcreate).1]
    rfl
  | panic reason =>
    refine ⟨2, ?_⟩
    rw [after, (User.step_of_lost harrived hcreate).1]
    rfl
  | ok state =>
    have hsetUp : (s.after u 2).phase =
        .calling .setUp (.begin ((s.after u 1).template.setUp state)) := by
      rw [after, (User.step_of_made harrived hcreate).1]
    exact ends_of_setUp hfits hsetUp fun hl j state completed h => ends_of_stop hfits hl hstop h

/-- The life of a user in any surroundings. As long as it is not cut short, by a panic or by an
abort that meets it suspended, what has happened to its session is the beginning of a life by the
rules, and all of one once the user has ended, with the effects of its fate. Once it is cut short
nothing more happens. A user that goes on by itself begins no cycle when it or its run has been
asked to stop; and every user ends that has a bound on its cycles or is asked to stop. -/
theorem life_of_user (s : Surroundings) (t : Template σ) (l : Lifecycle) (ticket : Nat) :
    let u : User σ := { template := t, lifecycle := l, ticket }
    (∀ k, (∀ j < k, s.cutsShort u j = false) →
      ∃ events fate, Life t l events fate ∧ s.history u k <+: events ∧
        ((s.after u k).phase = .ended → s.history u k = events ∧
          ∃ j < k, (s.after u j).phase ≠ .ended ∧ (s.after u (j + 1)).phase = .ended ∧
            ((s.after u j).step (s.view j)).2 = fate.effects t)) ∧
    (∀ k, s.cutsShort u k →
      ∀ j > k, (s.after u j).phase = .ended ∧ s.history u j = s.history u k) ∧
    (l ≠ .regular → ∀ k, (s.after u k).isCycling = false → (s.after u (k + 1)).isCycling →
      isPast s.stop? k = false ∧ isPast s.raise? k = false) ∧
    ((l = .looped → s.stop?.isSome ∨ s.raise?.isSome) →
      ∃ k, (s.after u k).phase = .ended) := by
  intro u
  have hfits : u.phase.Fits u.lifecycle := trivial
  refine ⟨fun k hcut => s.follows hfits (fun h => nomatch h) hcut,
    fun k hcut j hj => s.over_of_cutsShort hcut hj,
    fun hl k hbefore hafter => ?_,
    fun hstop => ends_of_launched rfl hstop⟩
  obtain ⟨-, hlifecycle, -⟩ := s.after_keeps hfits k
  obtain ⟨hactive, hraised⟩ :=
    User.going_of_begins (v := s.view k) (fun h => hl (hlifecycle.symm.trans h)) hbefore hafter
  exact ⟨by simpa [view] using hactive, hraised⟩

end Surroundings

end LoadTest
