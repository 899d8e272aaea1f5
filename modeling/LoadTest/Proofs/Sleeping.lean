import LoadTest.Proofs.Slices

/-!
# Users that fall asleep

Cycled and regular users come to rest by themselves. Looped users do if no cycle leads to the next
one without a sleep. Whether that is so is a property of their template, as it is that no callback
raises the stop signal.
-/

namespace LoadTest

variable {σ : Type}

namespace User

variable {t : Template σ} {u u' : User σ}

/-- The user has been launched with a template, and has taken some steps whatever it met. -/
def IsOf (t : Template σ) (u : User σ) : Prop :=
  ∃ lifecycle ticket, Relation.ReflTransGen (fun u u' => ∃ v, u' = (u.step v).1)
    { template := t, lifecycle, ticket } u

def isAsleep (u : User σ) : Bool := u.wakeAt?.isSome

/-- A step by which a user neither ends nor falls asleep. -/
def StaysAwake (u u' : User σ) : Prop := GoesOn isAsleep u' u

lemma IsOf.step (h : u.IsOf t) (v : View) : (u.step v).1.IsOf t := by
  obtain ⟨lifecycle, ticket, hsteps⟩ := h
  exact ⟨lifecycle, ticket, hsteps.tail ⟨v, rfl⟩⟩

lemma IsOf.fits (h : u.IsOf t) : u.phase.Fits u.lifecycle := by
  obtain ⟨lifecycle, ticket, hsteps⟩ := h
  induction hsteps with
  | refl => trivial
  | tail _ hstep ih =>
    obtain ⟨v, rfl⟩ := hstep
    obtain ⟨-, hlifecycle, hfits⟩ := step_keeps (v := v) ih
    rwa [hlifecycle]

lemma isOf_launched (t : Template σ) (lifecycle : Lifecycle) (ticket : Nat) :
    IsOf t { template := t, lifecycle, ticket } := ⟨lifecycle, ticket, .refl⟩

lemma IsOf.lifecycle_step (h : u.IsOf t) (v : View) : (u.step v).1.lifecycle = u.lifecycle :=
  (step_keeps (v := v) h.fits).2.1

end User

/-- No callback of a behavior raises the stop signal. -/
def Template.NeverRaises (t : Template σ) : Prop :=
  ∀ u : User σ, u.IsOf t → ∀ v, .deed .raise ∉ (u.step v).2

/-- From one decision on a cycle to the next, a looped user sleeps. -/
def Template.SleepsInCycles (t : Template σ) : Prop :=
  ∀ u u' : User σ, u.IsOf t → u.lifecycle = .looped → u.isDeciding = true → u'.isDeciding = true →
    ¬ Relation.TransGen User.StaysAwake u u'

namespace User

variable {t : Template σ} {u u' : User σ}

/-- The number of cycles that a cycled user may still begin falls with each of them. -/
lemma acc_of_cycled {stop : User σ → Bool} {limit completed : UInt32}
    (hl : u.lifecycle = .cycled limit) {state : σ} (hphase : u.phase = .deciding state completed) :
    Acc (GoesOn stop) u := by
  induction hn : limit.toNat - completed.toNat using Nat.strongRecOn
    generalizing u state completed with
  | ind n ih =>
    refine acc_of_deciding hphase fun hdone _ state _ => ?_
    refine acc_of_yielding rfl fun _ => ih _ ?_ hl rfl rfl
    have hlt : completed < limit := by simpa [isDone, hl, Lifecycle.limit?] using hdone
    have := UInt32.lt_iff_toNat_lt.1 hlt
    rw [toNat_succ_of_lt hlt, ← hn]
    omega

/-- A looped user that decides on its cycles falls asleep or ends, if it sleeps in its cycles. -/
lemma acc_of_sleepsInCycles (ht : t.SleepsInCycles) (hu : u.IsOf t) (hl : u.lifecycle = .looped)
    (hdeciding : u.isDeciding = true) : Acc (GoesOn isAsleep) u := by
  have hafter : ∀ x, Relation.TransGen StaysAwake u x →
      Acc (GoesOn isAsleep) x := by
    intro x hx
    -- On the way nobody comes to decide, so that the user may as well stop there.
    have hstop : Acc (GoesOn fun u : User σ => u.isAsleep || u.isDeciding) x :=
      acc_of_checks fun u _ _ h hgo => by simp [h] at hgo
    induction hstop with
    | intro x _ ih =>
      refine Acc.intro x fun y hy => ?_
      have hpath := hx.tail hy
      refine ih y ?_ hpath
      obtain ⟨v, rfl, hended, hawake⟩ := hy
      refine ⟨v, rfl, hended, ?_⟩
      have hnot : (x.step v).1.isDeciding = false :=
        Bool.eq_false_iff.2 fun h => ht u _ hu hl hdeciding h hpath
      exact Bool.or_eq_false_iff.2 ⟨hawake, hnot⟩
  exact Acc.intro u fun y hy => hafter y (.single hy)

/-- A user with a bound on its cycles does not go on forever. -/
lemma acc_of_bounded {stop : User σ → Bool} (hl : u.lifecycle ≠ .looped) : Acc (GoesOn stop) u := by
  refine acc_of_checks fun u' _ hl' hdeciding _ => ?_
  cases hphase : u'.phase with
  | deciding state completed =>
    cases hbound : u.lifecycle with
    | regular =>
      exact acc_of_deciding hphase fun _ hnot => absurd (hl'.trans hbound) hnot
    | looped => exact absurd hbound hl
    | cycled limit => exact acc_of_cycled (hl'.trans hbound) hphase
  | _ => simp [isDeciding, hphase] at hdeciding

/-- A user of a template that sleeps in its cycles does not stay awake forever. -/
theorem IsOf.acc (ht : t.SleepsInCycles) (hu : u.IsOf t) :
    Acc (GoesOn isAsleep) u := by
  cases hl : u.lifecycle with
  | regular => exact acc_of_bounded (by simp [hl])
  | cycled limit => exact acc_of_bounded (by simp [hl])
  | looped =>
    have hstop : Acc (GoesOn fun u : User σ => u.isAsleep || u.isDeciding) u :=
      acc_of_checks fun u _ _ h hgo => by simp [h] at hgo
    induction hstop with
    | intro u _ ih =>
      refine Acc.intro u ?_
      rintro _ ⟨v, rfl, hended, hawake⟩
      have hl' := (hu.lifecycle_step v).trans hl
      cases hdeciding : (u.step v).1.isDeciding with
      | true => exact acc_of_sleepsInCycles ht (hu.step v) hl' hdeciding
      | false =>
        have hstop := Bool.or_eq_false_iff.2 ⟨hawake, hdeciding⟩
        exact ih _ ⟨v, rfl, hended, hstop⟩ (hu.step v) hl'

end User

end LoadTest
