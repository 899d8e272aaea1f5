import LoadTest.Proofs.Following

/-!
# The course of a life

The steps of a user in any surroundings, and what has happened after any number of them.
-/

namespace LoadTest

variable {σ : Type}

/-! ### What a step keeps -/

namespace User

variable {u : User σ} {v : View}

lemma fits_endCycle (u : User σ) (state : σ) (completed : UInt32) :
    ∃ p, u.endCycle state completed = u.enter p ∧ p.Fits u.lifecycle := by
  by_cases hl : u.lifecycle = .regular
  · exact ⟨.calling (.tearDown none) (.begin (u.template.tearDown state)),
      endCycle_of_regular hl, trivial⟩
  · exact ⟨.yielding state (completed + 1), endCycle_of_ne_regular hl, hl⟩

lemma fits_returned (u : User σ) (now : Millis) (stage : Stage σ) (state : σ)
    (failure : Option String) :
    ∃ p, (u.returned now stage state failure).1 = u.enter p ∧ p.Fits u.lifecycle := by
  cases stage with
  | setUp =>
    cases failure with
    | some reason => exact ⟨.ended, rfl, trivial⟩
    | none =>
      by_cases hl : u.lifecycle = .regular
      · obtain ⟨word, hphase⟩ := u.phase_beginCycle state 0
        rw [returned_setUp_of_regular hl]
        exact ⟨(u.beginCycle state 0).phase, rfl, by rw [hphase]; trivial⟩
      · rw [returned_setUp_of_ne_regular hl]
        exact ⟨.deciding state 0, rfl, hl⟩
  | cycle completed call left pause =>
    rcases call.goesOn_or_fatal failure with hgoes | ⟨reason, rfl, hfatal⟩
    · obtain ⟨report, hu⟩ := @returned_cycle σ u now state completed call left pause failure hgoes
      rw [hu]
      cases left with
      | cons next left => exact ⟨_, rfl, trivial⟩
      | nil =>
        by_cases hpause : pause = 0
        · simp only [hpause, if_true]
          exact u.fits_endCycle state completed
        · simp only [hpause, if_false]
          exact ⟨_, rfl, trivial⟩
    · rw [returned_of_fatal hfatal]
      exact ⟨_, rfl, trivial⟩
  | tearDown first =>
    refine ⟨.ended, ?_, trivial⟩
    cases first <;> cases failure <;> rfl

lemma fits_decide (u : User σ) (v : View) (state : σ) (completed : UInt32) :
    ∃ p, (u.decide v state completed).1 = u.enter p ∧ p.Fits u.lifecycle := by
  rw [decide]
  split_ifs
  · obtain ⟨word, hphase⟩ := u.phase_beginCycle state completed
    exact ⟨(u.beginCycle state completed).phase, rfl, by rw [hphase]; trivial⟩
  · exact ⟨_, rfl, trivial⟩

/-- No step changes what a user is to do. -/
lemma step_keeps (hfits : u.phase.Fits u.lifecycle) :
    (u.step v).1.template = u.template ∧ (u.step v).1.lifecycle = u.lifecycle ∧
      (u.step v).1.phase.Fits u.lifecycle := by
  have henter : ∀ {u' : User σ}, (∃ p, u' = u.enter p ∧ p.Fits u.lifecycle) →
      u'.template = u.template ∧ u'.lifecycle = u.lifecycle ∧ u'.phase.Fits u.lifecycle := by
    rintro _ ⟨p, rfl, hp⟩
    exact ⟨rfl, rfl, hp⟩
  by_cases habort : v.aborted && u.isSuspended
  · rw [step, if_pos habort]
    exact henter ⟨.ended, rfl, trivial⟩
  rw [step, if_neg habort]
  cases hphase : u.phase with
  | launched => exact ⟨rfl, rfl, trivial⟩
  | arrived =>
    cases hcreate : u.template.create v.nextInstance with
    | error reason => exact henter ⟨.ended, rfl, trivial⟩
    | panic reason => exact henter ⟨.ended, rfl, trivial⟩
    | ok state => exact ⟨rfl, rfl, trivial⟩
  | calling stage a =>
    cases hstep : a.step v.now (some v.run) with
    | mk standing deeds =>
      cases standing with
      | going a' =>
        simp only [hstep]
        exact henter ⟨_, rfl, trivial⟩
      | returned state failure =>
        simp only [hstep]
        exact henter (u.fits_returned v.now stage state failure)
      | panicked =>
        simp only [hstep]
        exact henter ⟨.ended, rfl, trivial⟩
  | pausing state completed wakeAt => exact henter (u.fits_endCycle state completed)
  | yielding state completed => exact henter ⟨.deciding state completed, rfl, by
      rw [hphase] at hfits
      exact hfits⟩
  | deciding state completed => exact henter (u.fits_decide v state completed)
  | ended => exact ⟨rfl, rfl, by rw [hphase]; trivial⟩

end User

/-! ### Runs -/

namespace Surroundings

variable (s : Surroundings) {u : User σ}

lemma after_keeps (hfits : u.phase.Fits u.lifecycle) (k : Nat) :
    (s.after u k).template = u.template ∧ (s.after u k).lifecycle = u.lifecycle ∧
      (s.after u k).phase.Fits u.lifecycle := by
  induction k with
  | zero => exact ⟨rfl, rfl, hfits⟩
  | succ k ih =>
    obtain ⟨htemplate, hlifecycle, hk⟩ := ih
    obtain ⟨ht, hl, hp⟩ := User.step_keeps (v := s.view k) (hlifecycle ▸ hk)
    exact ⟨ht.trans htemplate, hl.trans hlifecycle, hlifecycle ▸ hp⟩

/-- What has happened comes in front of what lies ahead. -/
lemma ahead_after (hfits : u.phase.Fits u.lifecycle) {k : Nat}
    (hcut : ∀ j < k, s.cutsShort u j = false) {events : List (LifeEvent σ)} {fate : Fate}
    (h : (s.after u k).phase.Ahead u.template u.lifecycle events fate) :
    u.phase.Ahead u.template u.lifecycle (s.history u k ++ events) fate := by
  induction k generalizing events with
  | zero => exact h
  | succ k ih =>
    obtain ⟨htemplate, hlifecycle, hk⟩ := s.after_keeps hfits k
    have hended : (s.after u k).phase ≠ .ended := by
      intro hended
      rw [after, (User.step_of_ended hended).1, hended] at h
      exact h
    obtain ⟨hleads, -⟩ :=
      User.leads_step (hcut k (Nat.lt_succ_self k)) hended (hlifecycle ▸ hk)
    rw [htemplate, hlifecycle] at hleads
    rw [history, List.append_assoc]
    exact ih (fun j hj => hcut j (Nat.lt_succ_of_lt hj)) (hleads _ _ h)

lemma after_of_ended {k : Nat} (hk : (s.after u k).phase = .ended) {j : Nat} (hj : k ≤ j) :
    s.after u j = s.after u k ∧ s.history u j = s.history u k := by
  induction hj with
  | refl => exact ⟨rfl, rfl⟩
  | @step j hj ih =>
    obtain ⟨hafter, hhistory⟩ := ih
    obtain ⟨hstep, hevents⟩ := User.step_of_ended (v := s.view j) (hafter ▸ hk)
    exact ⟨hstep.trans hafter, by rw [history, hevents, List.append_nil, hhistory]⟩

/-- A user that has not been in its end from the start came to it by some step. -/
lemma exists_last {k : Nat} (hu : u.phase ≠ .ended) (hk : (s.after u k).phase = .ended) :
    ∃ j < k, (s.after u j).phase ≠ .ended ∧ (s.after u (j + 1)).phase = .ended := by
  induction k with
  | zero => exact absurd hk hu
  | succ k ih =>
    by_cases hended : (s.after u k).phase = .ended
    · obtain ⟨j, hj, hlast⟩ := ih hended
      exact ⟨j, Nat.lt_succ_of_lt hj, hlast⟩
    · exact ⟨k, Nat.lt_succ_self k, hended, hk⟩

/-- A user that has not been cut short follows the rules of a life: what has happened is the
beginning of one, and all of it once the user has ended, with the effects of its fate. -/
theorem follows (hfits : u.phase.Fits u.lifecycle) (hu : u.phase ≠ .ended) {k : Nat}
    (hcut : ∀ j < k, s.cutsShort u j = false) :
    ∃ events fate, u.phase.Ahead u.template u.lifecycle events fate ∧
      s.history u k <+: events ∧
      ((s.after u k).phase = .ended → s.history u k = events ∧
        ∃ j < k, (s.after u j).phase ≠ .ended ∧ (s.after u (j + 1)).phase = .ended ∧
          ((s.after u j).step (s.view j)).2 = fate.effects u.template) := by
  by_cases hended : (s.after u k).phase = .ended
  · obtain ⟨j, hj, hbefore, hafter⟩ := s.exists_last hu hended
    obtain ⟨htemplate, hlifecycle, hj'⟩ := s.after_keeps hfits j
    obtain ⟨-, hlast⟩ := User.leads_step (hcut j hj) hbefore (hlifecycle ▸ hj')
    obtain ⟨fate, hahead, heffects⟩ := hlast hafter
    rw [htemplate, hlifecycle] at hahead
    have hhistory : s.history u k = s.history u j ++ (s.after u j).events (s.view j) :=
      (s.after_of_ended hafter hj).2
    refine ⟨s.history u k, fate, ?_, List.prefix_rfl, fun _ =>
      ⟨rfl, j, hj, hbefore, hafter, htemplate ▸ heffects⟩⟩
    rw [hhistory]
    exact s.ahead_after hfits (fun i hi => hcut i (Nat.lt_trans hi hj)) hahead
  · obtain ⟨-, hlifecycle, hk⟩ := s.after_keeps hfits k
    obtain ⟨events, fate, hahead⟩ := Phase.Fits.exists_ahead (t := u.template) hk hended
    exact ⟨_, fate, s.ahead_after hfits hcut hahead, List.prefix_append ..,
      fun h => absurd h hended⟩

/-- Once a life is cut short nothing happens to the session any more. -/
theorem over_of_cutsShort {k : Nat} (hcut : s.cutsShort u k) {j : Nat} (hj : k < j) :
    (s.after u j).phase = .ended ∧ s.history u j = s.history u k := by
  obtain ⟨hended, hevents⟩ := User.step_of_isCutShort hcut
  obtain ⟨hafter, hhistory⟩ := s.after_of_ended (k := k + 1) hended hj
  exact ⟨hafter ▸ hended, by rw [hhistory, history, hevents, List.append_nil]⟩

end Surroundings

end LoadTest
