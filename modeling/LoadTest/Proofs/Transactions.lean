import LoadTest.Proofs.Moves

/-!
# Transactions of callbacks

A transaction begins when it is called, and completes when its body comes to an end, with a failure
or without. It is cut off if its callback panics while it is under way, or if the user is aborted.
Transactions may be within others; each of them is one of its own.
-/

namespace LoadTest

variable {σ : Type}

/-- What happens to a transaction. -/
inductive Milestone where
  | begins
  | completes (succeeded : Bool)
  | isCutOff
  deriving DecidableEq, Repr

/-- The transactions that complete, among what happens to some. -/
def completions (ms : List (Labels × Milestone)) : List (Labels × Bool) :=
  ms.filterMap fun
    | (labels, .completes succeeded) => some (labels, succeeded)
    | _ => none

/-- A transaction that a deed reports as complete. -/
def Deed.completion? : Deed → Option (Labels × Bool)
  | .transaction labels succeeded _ => some (labels, succeeded)
  | _ => none

def Effect.completion? : Effect → Option (Labels × Bool)
  | .deed d => d.completion?
  | _ => none

/-- Transactions under way, before and after something has happened to them: those that were under
way or have begun are under way still, or have completed, or have been cut off. -/
def Resolves (before : List Labels) (ms : List (Labels × Milestone)) (after : List Labels) : Prop :=
  ∀ l, before.count l + ms.count (l, .begins) =
    after.count l + ms.count (l, .completes true) + ms.count (l, .completes false) +
      ms.count (l, .isCutOff)

lemma Resolves.refl (ls : List Labels) : Resolves ls [] ls := fun _ => rfl

/-- Whatever is cut off is not under way any more. -/
lemma resolves_cutOff (ls : List Labels) : Resolves ls (ls.map (·, .isCutOff)) [] := by
  intro l
  induction ls with
  | nil => rfl
  | cons l' ls ih =>
    simp only [List.map_cons, List.count_cons, List.count_nil, beq_iff_eq, Prod.mk.injEq] at ih ⊢
    split_ifs <;> simp_all; omega

lemma completions_cutOff (ls : List Labels) : completions (ls.map (·, .isCutOff)) = [] := by
  simp [completions]

/-! ### Callbacks -/

namespace Activation

/-- The transactions that a routine in progress is within, innermost first. -/
def within (a : Activation σ) : List Labels := a.opened.map OpenTransaction.labels

/-- What happens to transactions by the next action of a routine. -/
def milestones (a : Activation σ) : List (Labels × Milestone) :=
  if a.wakeAt.isSome then []
  else
    match a.routine, a.opened with
    | .transact labels _ _, _ => [(labels, .begins)]
    | .finish _ failure, t :: _ => [(t.labels, .completes failure.isNone)]
    | .panic _, _ => a.within.map (·, .isCutOff)
    | _, _ => []

end Activation

def Standing.within : Standing σ → List Labels
  | .going a => a.within
  | _ => []

namespace Activation

variable (a : Activation σ) (now : Millis) (run : Option RunView)

lemma resolves_step : Resolves a.within a.milestones (a.step now run).1.within := by
  obtain ⟨routine, opened, wakeAt⟩ := a
  cases wakeAt with
  | some wakeAt => exact .refl _
  | none =>
    cases routine with
    | finish state failure =>
      cases opened with
      | nil => exact .refl _
      | cons t ts =>
        intro l
        cases failure <;>
          simp [within, milestones, Activation.step, Standing.within, List.count_cons]
    | panic reason => exact resolves_cutOff _
    | sleep d next => cases d <;> exact .refl _
    | raise next => cases run <;> exact .refl _
    | transact labels body next =>
      intro l
      simp [within, milestones, Activation.step, Standing.within, List.count_cons]
    | _ => exact .refl _

/-- Exactly the transactions that complete are reported. -/
lemma completions_milestones :
    (a.step now run).2.filterMap Deed.completion? = completions a.milestones := by
  obtain ⟨routine, opened, wakeAt⟩ := a
  cases wakeAt with
  | some wakeAt => rfl
  | none =>
    cases routine with
    | finish state failure => cases opened <;> rfl
    | panic reason => exact (completions_cutOff _).symm
    | sleep d next => cases d <;> rfl
    | raise next => cases run <;> rfl
    | _ => rfl

end Activation

/-! ### Users -/

/-- The transactions that a user is within. -/
def Phase.within : Phase σ → List Labels
  | .calling _ a => a.within
  | _ => []

namespace User

variable {u : User σ} {v : View}

/-- What happens to transactions by the next step of a user. -/
def milestones (u : User σ) (v : View) : List (Labels × Milestone) :=
  match u.phase with
  | .calling _ a => if v.aborted && u.isSuspended then a.within.map (·, .isCutOff) else a.milestones
  | _ => []

lemma within_endCycle (u : User σ) (state : σ) (completed : UInt32) :
    (u.endCycle state completed).phase.within = [] := by
  rcases u.phase_endCycle state completed with h | h <;> rw [h] <;> rfl

/-- A new callback is within no transaction. -/
lemma TurnsTo.within {now : Millis} {stage : Stage σ} {state : σ} {failure : Option String}
    {p : Phase σ} (h : u.TurnsTo now stage state failure p) : p.within = [] := by
  cases h with
  | endOfCycle => exact u.within_endCycle _ _
  | _ => rfl

lemma within_of_isEnded (h : u.isEnded = true) : u.phase.within = [] := by
  rw [phase_of_isEnded h]
  rfl

lemma within_returned (u : User σ) (now : Millis) (stage : Stage σ) (state : σ)
    (failure : Option String) : (u.returned now stage state failure).1.phase.within = [] := by
  cases hended : (u.returned now stage state failure).1.isEnded with
  | true => exact within_of_isEnded hended
  | false => exact (turnsTo_of_isEnded hended).within

/-- Between two callbacks a user is within no transaction. -/
lemma within_step (hphase : ∀ stage a, u.phase ≠ .calling stage a) :
    (u.step v).1.phase.within = [] := by
  cases hended : (u.step v).1.isEnded with
  | true => exact within_of_isEnded hended
  | false =>
    generalize hp : (u.step v).1.phase = p
    have hmoves := movesTo_of_isEnded hended
    rw [hp] at hmoves
    cases hmoves with
    | goesOn hcalling => exact absurd hcalling (hphase _ _)
    | returns hcalling => exact absurd hcalling (hphase _ _)
    | wakes => exact u.within_endCycle _ _
    | _ => rfl

/-- The step of a user within a callback is that of the callback. -/
lemma within_calling {stage : Stage σ} {a : Activation σ} (hphase : u.phase = .calling stage a)
    (habort : ¬ (v.aborted && u.isSuspended) = true) :
    (u.step v).1.phase.within = (a.step v.now (some v.run)).1.within := by
  rw [step, if_neg habort]
  cases hstep : a.step v.now (some v.run) with
  | mk standing deeds =>
    cases standing with
    | going a' => simp [hphase, hstep, enter, Phase.within, Standing.within]
    | returned state failure =>
      simpa [hphase, hstep, Standing.within] using u.within_returned v.now stage state failure
    | panicked => simp [hphase, hstep, enter, Phase.within, Standing.within]

/-- A step of a user resolves transactions. -/
theorem resolves_step (u : User σ) (v : View) :
    Resolves u.phase.within (u.milestones v) (u.step v).1.phase.within := by
  by_cases hcalling : ∃ stage a, u.phase = .calling stage a
  · obtain ⟨stage, a, hphase⟩ := hcalling
    rw [milestones, hphase]
    simp only
    split_ifs with habort
    · have hended : (u.step v).1.phase = .ended := by
        rw [step, if_pos habort]
        rfl
      rw [hended]
      exact resolves_cutOff _
    · rw [within_calling hphase habort]
      exact a.resolves_step v.now (some v.run)
  · have hphase : ∀ stage a, u.phase ≠ .calling stage a := by simpa using hcalling
    have hnone : u.milestones v = [] ∧ u.phase.within = [] := by
      rw [milestones]
      cases hp : u.phase with
      | calling stage a => exact absurd hp (hphase stage a)
      | _ => exact ⟨rfl, rfl⟩
    rw [hnone.1, hnone.2, within_step hphase]
    exact .refl _

lemma completion?_finish (u : User σ) (failure : Option String) :
    ∀ e ∈ (u.finish failure).2, e.completion? = none := by
  cases failure <;> simp [finish, Effect.completion?]

/-- Nor is what follows a callback of a cycle that has not failed fatally. -/
lemma completion?_onwards (u : User σ) (now : Millis) (state : σ) (completed : UInt32)
    (left : List (Call σ)) (pause : Millis) {report : List Effect}
    (hreport : ∀ e ∈ report, e.completion? = none) :
    ∀ e ∈ (match left with
      | next :: left =>
        (u.enter (.calling (.cycle completed next left pause) (.begin (next.run state))), report)
      | [] =>
        if pause = 0 then (u.endCycle state completed, report)
        else (u.enter (.pausing state completed (wakeTime now pause)), report) :
        User σ × List Effect).2, e.completion? = none := by
  cases left with
  | cons next left => exact hreport
  | nil =>
    simp only
    split_ifs <;> exact hreport

/-- What follows a callback is not reported as a transaction. -/
lemma completion?_returned (u : User σ) (now : Millis) (stage : Stage σ) (state : σ)
    (failure : Option String) :
    ∀ e ∈ (u.returned now stage state failure).2, e.completion? = none := by
  cases stage with
  | setUp =>
    cases failure with
    | some reason => exact u.completion?_finish (some reason)
    | none => cases hl : u.lifecycle <;> simp [returned, hl]
  | cycle completed call left pause =>
    cases hcall : call.onFailure with
    | fatal =>
      cases failure with
      | none =>
        simp only [returned, hcall]
        exact u.completion?_onwards now state completed left pause (by simp)
      | some reason => simp [returned, hcall]
    | logged what =>
      cases failure with
      | none =>
        simp only [returned, hcall]
        exact u.completion?_onwards now state completed left pause (by simp)
      | some reason =>
        simp only [returned, hcall]
        exact u.completion?_onwards now state completed left pause (by simp [Effect.completion?])
  | tearDown first =>
    cases first with
    | none => cases failure <;> exact u.completion?_finish _
    | some reason =>
      cases failure with
      | none => exact u.completion?_finish (some reason)
      | some second =>
        exact List.forall_mem_cons.2 ⟨rfl, u.completion?_finish (some reason)⟩

/-- The transactions that a step of a user reports are those that complete by it. -/
theorem completions_milestones (u : User σ) (v : View) :
    (u.step v).2.filterMap Effect.completion? = completions (u.milestones v) := by
  have hquiet : ∀ es : List Effect, (∀ e ∈ es, e.completion? = none) →
      es.filterMap Effect.completion? = [] := fun es hes => List.filterMap_eq_nil_iff.2 hes
  rw [step]
  split_ifs with habort
  · have hnone : completions (u.milestones v) = [] := by
      rw [milestones]
      split
      · rw [if_pos habort, completions_cutOff]
      · rfl
    rw [hnone]
    exact hquiet _ (by simp [abandon, Effect.completion?])
  · cases hphase : u.phase with
    | calling stage a =>
      have hcalls : u.milestones v = a.milestones := by simp [milestones, hphase, habort]
      have hdeeds : ∀ deeds : List Deed, (deeds.map Effect.deed).filterMap Effect.completion? =
          deeds.filterMap Deed.completion? := fun deeds => List.filterMap_map
      rw [hcalls, ← a.completions_milestones v.now (some v.run)]
      cases hstep : a.step v.now (some v.run) with
      | mk standing deeds =>
        cases standing with
        | going a' => simp only [hstep, hdeeds]
        | returned state failure =>
          simp only [hstep, List.filterMap_append, hdeeds,
            hquiet _ (u.completion?_returned v.now stage state failure), List.append_nil]
        | panicked =>
          simp only [hstep, List.filterMap_append, hdeeds]
          simp [Effect.completion?]
    | arrived =>
      have hnone : u.milestones v = [] := by rw [milestones, hphase]
      rw [hnone]
      simp only
      split <;> exact hquiet _ (by simp [Effect.completion?])
    | deciding state completed =>
      have hnone : u.milestones v = [] := by rw [milestones, hphase]
      rw [hnone]
      simp only [decide]
      split_ifs <;> exact hquiet _ (by simp [Effect.completion?])
    | _ =>
      rw [milestones, hphase]
      rfl

end User

end LoadTest
