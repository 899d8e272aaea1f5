import LoadTest.Proofs.Following

/-!
# How users move on

What a step of a user may come to, unless the user ends by it. All that is left to be seen of the
step are the phases before and after it, and how the callback under way has returned.
-/

namespace LoadTest

variable {σ : Type}

namespace User

/-- What a user turns to once a callback has returned. -/
inductive TurnsTo (u : User σ) (now : Millis) : Stage σ → σ → Option String → Phase σ → Prop
  | firstCycle {state : σ} (hl : u.lifecycle = .regular) :
      TurnsTo u now .setUp state none (u.beginCycle state 0).phase
  | check {state : σ} (hl : u.lifecycle ≠ .regular) :
      TurnsTo u now .setUp state none (.deciding state 0)
  | nextCall {state : σ} {failure : Option String} {completed : UInt32} {call next : Call σ}
      {left : List (Call σ)} {pause : Millis} :
      TurnsTo u now (.cycle completed call (next :: left) pause) state failure
        (.calling (.cycle completed next left pause) (.begin (next.run state)))
  | pause {state : σ} {failure : Option String} {completed : UInt32} {call : Call σ}
      {pause : Millis} (hpause : pause ≠ 0) :
      TurnsTo u now (.cycle completed call [] pause) state failure
        (.pausing state completed (wakeTime now pause))
  | endOfCycle {state : σ} {failure : Option String} {completed : UInt32} {call : Call σ} :
      TurnsTo u now (.cycle completed call [] 0) state failure (u.endCycle state completed).phase
  | tearDown {state : σ} {reason : String} {completed : UInt32} {call : Call σ}
      {left : List (Call σ)} {pause : Millis} (hfatal : call.onFailure = .fatal) :
      TurnsTo u now (.cycle completed call left pause) state (some reason)
        (u.tearDown state (some reason)).phase

/-- The phase that a step of a user leads to. -/
inductive MovesTo (u : User σ) (v : View) : Phase σ → Prop
  | arrives (hphase : u.phase = .launched) : MovesTo u v .arrived
  | isMade {state : σ} (hphase : u.phase = .arrived) :
      MovesTo u v (.calling .setUp (.begin (u.template.setUp state)))
  | goesOn {stage : Stage σ} {a a' : Activation σ} (hphase : u.phase = .calling stage a)
      (hstep : (a.step v.now (some v.run)).1 = .going a') : MovesTo u v (.calling stage a')
  | returns {stage : Stage σ} {a : Activation σ} {state : σ} {failure : Option String} {p : Phase σ}
      (hphase : u.phase = .calling stage a)
      (hstep : (a.step v.now (some v.run)).1 = .returned state failure)
      (hnext : u.TurnsTo v.now stage state failure p) : MovesTo u v p
  | wakes {state : σ} {completed : UInt32} {wakeAt : Millis}
      (hphase : u.phase = .pausing state completed wakeAt) :
      MovesTo u v (u.endCycle state completed).phase
  | looks {state : σ} {completed : UInt32} (hphase : u.phase = .yielding state completed) :
      MovesTo u v (.deciding state completed)
  | begins {state : σ} {completed : UInt32} (hphase : u.phase = .deciding state completed)
      (hgoes : v.active && !v.run.raised && !u.isDone completed) :
      MovesTo u v (u.beginCycle state completed).phase
  | stops {state : σ} {completed : UInt32} (hphase : u.phase = .deciding state completed) :
      MovesTo u v (u.tearDown state none).phase

variable {u : User σ} {v : View}

/-- Whoever has returned from a callback and has not ended turns to something else. -/
lemma turnsTo_of_isEnded {now : Millis} {stage : Stage σ} {state : σ} {failure : Option String}
    (h : (u.returned now stage state failure).1.isEnded = false) :
    u.TurnsTo now stage state failure (u.returned now stage state failure).1.phase := by
  cases stage with
  | setUp =>
    cases failure with
    | some reason => cases h
    | none =>
      rw [returned]
      split
      next hl => exact .firstCycle hl
      next hl => exact .check hl
  | cycle completed call left pause =>
    rcases call.goesOn_or_fatal failure with hgoes | ⟨reason, rfl, hfatal⟩
    · obtain ⟨report, hreturned⟩ :=
        @returned_cycle σ u now state completed call left pause failure hgoes
      rw [hreturned]
      cases left with
      | cons next left => exact .nextCall
      | nil =>
        by_cases hpause : pause = 0
        · simp only [hpause, if_true]
          exact .endOfCycle
        · simp only [hpause, if_false]
          exact .pause hpause
    · rw [returned_of_fatal hfatal]
      exact .tearDown hfatal
  | tearDown first => cases first <;> cases failure <;> cases h

/-- A user that does not end by a step moves on. -/
theorem movesTo_of_isEnded (h : (u.step v).1.isEnded = false) : u.MovesTo v (u.step v).1.phase := by
  cases hcut : u.isCutShort v with
  | true =>
    rw [isEnded, (step_of_isCutShort hcut).1] at h
    cases h
  | false =>
    cases hphase : u.phase with
    | launched =>
      rw [(step_of_launched hphase).1]
      exact .arrives hphase
    | arrived =>
      cases hcreate : u.template.create v.nextInstance with
      | error reason =>
        rw [(step_of_unmade hphase hcreate).1] at h
        cases h
      | panic reason =>
        rw [(step_of_lost hphase hcreate).1] at h
        cases h
      | ok state =>
        rw [(step_of_made hphase hcreate).1]
        exact .isMade hphase
    | calling stage a =>
      cases hstep : (a.step v.now (some v.run)).1 with
      | going a' =>
        rw [(step_of_going hphase hcut hstep).1]
        exact .goesOn hphase hstep
      | returned state failure =>
        rw [(step_of_returned hphase hstep).1] at h ⊢
        exact .returns hphase hstep (turnsTo_of_isEnded h)
      | panicked => simp [isCutShort, panics, hphase, hstep] at hcut
    | pausing state completed wakeAt =>
      rw [(step_of_pausing hphase hcut).1]
      exact .wakes hphase
    | yielding state completed =>
      rw [(step_of_yielding hphase hcut).1]
      exact .looks hphase
    | deciding state completed =>
      rw [(step_of_deciding hphase).1, decide]
      split_ifs with hgoes
      · exact .begins hphase hgoes
      · exact .stops hphase
    | ended =>
      rw [(step_of_ended hphase).1, isEnded, hphase] at h
      cases h

lemma phase_endCycle (u : User σ) (state : σ) (completed : UInt32) :
    (u.endCycle state completed).phase = (u.tearDown state none).phase ∨
      (u.endCycle state completed).phase = .yielding state (completed + 1) := by
  rw [endCycle]
  split
  · exact .inl rfl
  · exact .inr rfl

end User

end LoadTest
