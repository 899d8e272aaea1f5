import LoadTest.Proofs.Forecast

/-!
# What scenarios come to

An operation that carries out a scenario sums it up in the end, unless it fails on the way: it never
gives up, and it never runs out of errands before. What it leaves is read off its run as it stands
at the very step with which the operation ends.
-/

namespace LoadTest

variable {σ : Type}

/-- Is the errand one that a work unit may come down to? -/
def Errand.isWork : Errand → Bool
  | .scenario _ | .units _ _ | .conclude _ | .raise => false
  | _ => true

/-- The agenda of a scenario: whatever comes first, the last errand sums up. -/
inductive SumsUp : List Errand → Prop
  | scenario (work : List WorkUnit) : SumsUp [.scenario work]
  | units (left : List WorkUnit) (since : Millis) : SumsUp [.units left since]
  | conclude (since : Millis) : SumsUp [.conclude since]
  | cons {e : Errand} {es : List Errand} (he : e.isWork = true) (hes : SumsUp es) :
      SumsUp (e :: es)

/-- What a scenario may come to on a run. -/
inductive Outcome.IsOf (r : Run) : Outcome → Prop
  | statistics (elapsed : Millis) : IsOf r (.statistics (r.statistics elapsed))
  | failed (e : ExecutionError) : IsOf r (.failed e)

/-! ### Errands -/

lemma SumsUp.append {es fs : List Errand} (hfs : SumsUp fs) (hes : ∀ e ∈ es, e.isWork = true) :
    SumsUp (es ++ fs) := by
  induction es with
  | nil => exact hfs
  | cons e es ih =>
    obtain ⟨he, hes⟩ := List.forall_mem_cons.1 hes
    exact .cons he (ih hes)

lemma SumsUp.ne_nil {es : List Errand} (h : SumsUp es) : es ≠ [] := by
  rintro rfl
  cases h

lemma Change.isWork_errand (c : Change) : c.errand.isWork = true := by cases c <;> rfl

lemma WorkUnit.isWork_errand (u : WorkUnit) : u.errand.isWork = true := by
  cases u with
  | create amount lifecycle span => cases span <;> rfl
  | remove amount mode span => cases span <;> rfl
  | _ => rfl

/-- The errands of a work unit may fail, and come down to others of their kind. -/
lemma Errand.perform_of_isWork {e : Errand} (he : e.isWork = true) (now : Millis) (r : Run) :
    (∀ o, (e.perform now r).outcome = some o → ∃ failure, o = .failed failure) ∧
      ∀ e' ∈ (e.perform now r).next, e'.isWork = true := by
  cases e with
  | create amount lifecycle =>
    rw [perform]
    split_ifs <;> simp [isWork]
  | remove amount mode =>
    rw [perform]
    split_ifs <;> simp
  | spread change amount span =>
    rw [perform]
    cases stepDelay amount (.ofMillis span) <;> simp [isWork]
  | paced change left step =>
    cases left with
    | zero => simp [perform]
    | succ left =>
      rw [perform]
      split_ifs
      · simp
      · simpa [isWork] using change.isWork_errand
  | resume change left step wakeAt =>
    rw [perform]
    split_ifs <;> simp [isWork]
  | scenario work => cases he
  | units left since => cases he
  | conclude since => cases he
  | raise => cases he
  | _ => simp [perform, isWork]

/-- The next errand of a scenario brings what the scenario comes to, or leaves the rest of it. -/
lemma SumsUp.perform {e : Errand} {rest : List Errand} (h : SumsUp (e :: rest)) (now : Millis)
    (r : Run) :
    (∃ o, (e.perform now r).outcome = some o ∧ o.IsOf r) ∨
      (e.perform now r).outcome = none ∧ SumsUp ((e.perform now r).next ++ rest) := by
  cases h with
  | scenario work => exact .inr ⟨rfl, .units work now⟩
  | conclude since => exact .inl ⟨_, rfl, .statistics _⟩
  | units left since =>
    right
    cases left with
    | nil => exact ⟨rfl, .conclude since⟩
    | cons unit left =>
      rw [Errand.perform]
      split_ifs
      · exact ⟨rfl, .conclude since⟩
      · exact ⟨rfl, .cons unit.isWork_errand (.units left since)⟩
  | cons he hrest =>
    obtain ⟨hfails, hnext⟩ := Errand.perform_of_isWork he now r
    cases houtcome : (e.perform now r).outcome with
    | some o =>
      obtain ⟨failure, rfl⟩ := hfails o houtcome
      exact .inl ⟨_, rfl, .failed failure⟩
    | none => exact .inr ⟨rfl, hrest.append hnext⟩

/-! ### Steps -/

/-- The operation carries out a scenario, however long that takes. -/
structure Operation.CarriesOut (o : Operation) : Prop where
  limit : o.limit = none
  sumsUp : SumsUp o.agenda

/-- A step of an operation that carries out a scenario ends it with what the scenario has come to,
or the operation goes on. -/
lemma Operation.CarriesOut.step {o : Operation} (h : o.CarriesOut) {now : Millis} {r : Run}
    (hready : o.isReady now r = true) :
    (o.step now r).2.1.isEnded = true ∧ (o.step now r).2.1.outcome.IsOf r ∨
      (o.step now r).2.1.isEnded = false ∧ (o.step now r).2.1.CarriesOut := by
  have hover : o.hold.isOver now r = true := by simpa [isReady, isLate, h.limit] using hready
  have hsums := h.sumsUp
  cases hagenda : o.agenda with
  | nil => exact absurd hagenda hsums.ne_nil
  | cons e rest =>
    rw [hagenda] at hsums
    rcases hsums.perform now r with ⟨outcome, houtcome, hof⟩ | ⟨houtcome, hrest⟩
    · rw [step_of_outcome hover hagenda houtcome]
      exact .inl ⟨rfl, hof⟩
    · rw [step_of_goesOn hover hagenda houtcome]
      refine .inr ⟨?_, h.limit, hrest⟩
      simp [isEnded, hrest.ne_nil]

namespace World

variable {w v : World σ}

/-- Whoever is no operation leaves the operations and the outcomes as they are. -/
lemma operations_turn {a : Actor σ} (ha : a.task? = none) (others : List (Actor σ)) :
    (w.turn a others).outcomes = w.outcomes ∧
      ∀ o, .operation o ∈ (w.turn a others).actors → .operation o ∈ others := by
  cases a with
  | operation o => cases ha
  | user i u =>
    cases hr : w.run? i with
    | none => simp [turn, hr]
    | some r =>
      have hkeeps := keeps_foldl (keeps_applyEffect i (u.step (w.viewOf r u)).1)
        (u.step (w.viewOf r u)).2 w
      simp only [turn, hr]
      split_ifs <;> simp [hkeeps.outcomes]
  | watch i tick =>
    cases hr : w.run? i with
    | none => simp [turn, hr]
    | some r =>
      simp only [turn, hr]
      split_ifs <;> simp [setRun, log]
  | alarm i due =>
    cases hr : w.run? i with
    | none => simp [turn, hr]
    | some r => simp [turn, hr, setRun]

/-- How the operations under way and the outcomes change by a step. -/
inductive Operates (w v : World σ) : Prop
  /-- No operation takes its turn. -/
  | rests (hold : ∀ o, .operation o ∈ v.actors → .operation o ∈ w.actors)
      (houtcomes : v.outcomes = w.outcomes)
  | goesOn {o : Operation} {r : Run} (ho : .operation o ∈ w.actors) (hr : w.run? o.run = some r)
      (hready : o.isReady w.now r = true) (hended : (o.step w.now r).2.1.isEnded = false)
      (hold : ∀ o', .operation o' ∈ v.actors →
        .operation o' ∈ w.actors ∨ o' = (o.step w.now r).2.1)
      (houtcomes : v.outcomes = w.outcomes)
  | ends {o : Operation} {r : Run} (ho : .operation o ∈ w.actors) (hr : w.run? o.run = some r)
      (hready : o.isReady w.now r = true) (hended : (o.step w.now r).2.1.isEnded = true)
      (hold : ∀ o', .operation o' ∈ v.actors → .operation o' ∈ w.actors)
      (houtcomes : v.outcomes = (o.id, (o.step w.now r).2.1.outcome) :: w.outcomes)

lemma operates_turn {o : Operation} {others : List (Actor σ)} (ho : .operation o ∈ w.actors)
    (hothers : ∀ a ∈ others, a ∈ w.actors) (hready : w.isReady (.operation o) = true) :
    w.Operates (w.turn (.operation o) others) := by
  obtain ⟨r, hr, hready⟩ := (Option.any_eq_true _ _).1 hready
  obtain ⟨-, hid, -⟩ := o.later_step w.now r
  have hnew : ∀ o', .operation o' ∉
      w.newcomers o.run (o.step w.now r).1 (o.step w.now r).2.2 := by
    intro o' ho'
    obtain ⟨_, _, _, -, -, heq⟩ := mem_newcomers ho'
    cases heq
  cases hended : (o.step w.now r).2.1.isEnded with
  | true =>
    obtain ⟨q, -, -, hactors, houtcomes⟩ := turn_operation_ends others hr hended
    refine .ends ho hr hready hended (fun o' ho' => ?_) (hid ▸ houtcomes)
    rw [hactors] at ho'
    exact (List.mem_append.1 ho').elim (hothers _) fun ho' => absurd ho' (hnew o')
  | false =>
    obtain ⟨-, -, houtcomes⟩ := turn_operation_goesOn others hr hended
    refine .goesOn ho hr hready hended (fun o' ho' => ?_) houtcomes
    have hmem := (perm_turn_operation others hr hended).mem_iff.1 ho'
    rcases List.mem_cons.1 hmem with heq | hmem
    · exact .inr (Actor.operation.inj heq)
    · exact .inl ((List.mem_append.1 hmem).elim (hothers _) fun ho' => absurd ho' (hnew o'))

theorem Step.operates (h : Step w v) : w.Operates v := by
  cases h with
  | wait hnow => exact .rests (fun _ ho => ho) rfl
  | @turn a before after hactors hready =>
    have hmem : a ∈ w.actors := hactors ▸ List.mem_append_right _ (List.mem_cons_self ..)
    have hothers : ∀ b ∈ before ++ after, b ∈ w.actors := by
      intro b hb
      rw [hactors]
      exact List.perm_middle.mem_iff.2 (List.mem_cons_of_mem _ hb)
    cases htask : a.task? with
    | none =>
      obtain ⟨houtcomes, hold⟩ := w.operations_turn htask (before ++ after)
      exact .rests (fun o ho => hothers _ (hold o ho)) houtcomes
    | some task =>
      cases a with
      | operation o => exact operates_turn hmem hothers hready
      | _ => cases htask

/-- All operations under way carry out scenarios. -/
def CarriesOut (w : World σ) : Prop := ∀ o, .operation o ∈ w.actors → o.CarriesOut

/-- How the outcomes may change where all operations carry out scenarios. -/
inductive Concluded (w v : World σ) : Prop
  | nothing (houtcomes : v.outcomes = w.outcomes)
  /-- A scenario has come to something. -/
  | scenario {o : Operation} {r : Run} {outcome : Outcome} (ho : .operation o ∈ w.actors)
      (hr : w.run? o.run = some r) (houtcome : outcome.IsOf r)
      (houtcomes : v.outcomes = (o.id, outcome) :: w.outcomes)

/-- Where all operations carry out scenarios they keep doing so, and an operation ends with what its
scenario has come to. -/
theorem CarriesOut.step (h : w.CarriesOut) (hstep : Step w v) :
    v.CarriesOut ∧ w.Concluded v := by
  cases hstep.operates with
  | rests hold houtcomes => exact ⟨fun o ho => h o (hold o ho), .nothing houtcomes⟩
  | goesOn ho hr hready hended hold houtcomes =>
    rcases (h _ ho).step hready with ⟨hended', -⟩ | ⟨-, hgoes⟩
    · exact absurd (hended.symm.trans hended') Bool.false_ne_true
    · exact ⟨fun o' ho' => (hold o' ho').elim (h o') fun heq => heq ▸ hgoes, .nothing houtcomes⟩
  | ends ho hr hready hended hold houtcomes =>
    rcases (h _ ho).step hready with ⟨-, hof⟩ | ⟨hended', -⟩
    · exact ⟨fun o' ho' => h o' (hold o' ho'), .scenario ho hr hof houtcomes⟩
    · exact absurd (hended'.symm.trans hended) Bool.false_ne_true

/-- The operations are the same, and so they are where they carry out scenarios. -/
lemma CarriesOut.keeps (h : w.CarriesOut) (hkeeps : w.Keeps v) : v.CarriesOut := by
  rw [CarriesOut, hkeeps.actors]
  exact h

lemma CarriesOut.opened (h : w.CarriesOut) (template : Nat) (context : RunContext)
    (units : List WorkUnit) : (w.opened template context [.scenario units]).CarriesOut := by
  intro o ho
  have hmem : .operation o ∈ w.actors ∨
      o = { id := w.nextOperation, run := w.runs.length, agenda := [.scenario units] } := by
    simpa [World.opened, openRun, submit] using ho
  rcases hmem with hmem | rfl
  · exact h o hmem
  · exact ⟨rfl, .scenario units⟩

end World

end LoadTest
