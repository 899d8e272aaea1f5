import LoadTest.Proofs.Concluding
import LoadTest.Proofs.Joining
import LoadTest.Proofs.Watching

/-!
# Checks made before the run

Users can be spread over a time only if there are some, and the time between two of them is told in
64 bits. Both is seen to when a scenario is compiled, however its work units are repeated, so that
no division fails while they are carried out, and none has to be cut off.
-/

namespace LoadTest

variable {ν σ : Type}

/-! ### Work units -/

/-- Some users over a time that fits 64 bits. -/
def Spreads (amount : Nat) (span : Millis) : Prop := 1 ≤ amount ∧ span < 2 ^ 64

/-- A work unit that can be carried out: if its users are spread over a time there are some, and it
removes none that end by themselves. -/
def WorkUnit.IsGuarded : WorkUnit → Prop
  | .create amount _ span => ∀ s, span = some s → Spreads amount s
  | .remove amount mode span => mode ≠ .regular ∧ ∀ s, span = some s → Spreads amount s
  | _ => True

lemma SpanOf.spreads {args : List Char} {amount : Nat} {timed : Bool} {span : Option Millis}
    (h : SpanOf args amount timed span) : ∀ s, span = some s → Spreads amount s := by
  rintro s rfl
  cases h with
  | timed hamount hspan =>
    obtain ⟨-, -, -, -, -, -, -, hlt⟩ := hspan
    exact ⟨hamount, hlt⟩

lemma Verb.Means.isGuarded {args : List Char} {verb : Verb} {unit : WorkUnit}
    (h : verb.Means args unit) : unit.IsGuarded := by
  cases h with
  | create _ _ _ hspan => exact hspan.spreads
  | @remove _ goesOn _ _ _ _ _ hspan => exact ⟨goesOn, hspan.spreads⟩
  | delay => trivial
  | waitForAll => trivial

/-- However often they are repeated, the work units of a scenario can be carried out. -/
lemma Derivation.Means.isGuarded {before : Nat} {d : Derivation} {units : List WorkUnit}
    (h : d.Means before units) : ∀ u ∈ units, u.IsGuarded := by
  induction h with
  | nil => exact fun _ hu => absurd hu List.not_mem_nil
  | simple hunit _ ih => exact List.forall_mem_cons.2 ⟨hunit.isGuarded, ih⟩
  | block _ _ _ _ _ ihbody ih =>
    refine List.forall_mem_append.2 ⟨fun u hu => ?_, ih⟩
    obtain ⟨inner, hinner, hu⟩ := List.mem_flatten.1 hu
    rw [List.eq_of_mem_replicate hinner] at hu
    exact ihbody u hu

lemma Spreads.div_le {amount : Nat} {span : Millis} (h : Spreads amount span) :
    span / amount ≤ maxMillis :=
  Nat.le_trans (Nat.div_le_self _ _) (Nat.le_of_lt_succ h.2)

/-- The pause after each single change is the whole quotient. -/
lemma Spreads.stepDelay_eq {amount : Nat} {span : Millis} (h : Spreads amount span) :
    stepDelay amount (.ofMillis span) = .ok (span / amount) := by
  rw [stepDelay, if_neg (Nat.ne_of_gt h.1), Duration.millis_ofMillis, Nat.min_eq_left h.div_le]

/-! ### Errands -/

/-- The errand is to spread some users over a time, as one of the work units says. -/
def IsSpreadOf (units : List WorkUnit) (change : Change) (amount : Nat) (span : Millis) : Prop :=
  ∃ unit ∈ units, unit.errand = .spread change amount span

/-- An errand that carrying out some work units comes down to. -/
def Errand.StemsFrom (units : List WorkUnit) : Errand → Prop
  | .scenario work => work ⊆ units
  | .units left _ => left ⊆ units
  | .spread change amount span => IsSpreadOf units change amount span
  | .paced change left step | .pause change left step | .resume change left step _ =>
    ∃ amount span, IsSpreadOf units change amount span ∧ left ≤ amount ∧ step = span / amount
  | _ => True

lemma Change.stemsFrom_errand (units : List WorkUnit) (c : Change) :
    c.errand.StemsFrom units := by cases c <;> trivial

lemma WorkUnit.stemsFrom_errand {units : List WorkUnit} {u : WorkUnit} (hu : u ∈ units) :
    u.errand.StemsFrom units := by
  cases u with
  | create amount lifecycle span =>
    cases span with
    | none => trivial
    | some span => exact ⟨_, hu, rfl⟩
  | remove amount mode span =>
    cases span with
    | none => trivial
    | some span => exact ⟨_, hu, rfl⟩
  | _ => trivial

lemma IsSpreadOf.spreads {units : List WorkUnit} (hunits : ∀ u ∈ units, u.IsGuarded)
    {change : Change} {amount : Nat} {span : Millis} (h : IsSpreadOf units change amount span) :
    Spreads amount span := by
  obtain ⟨unit, hmem, herrand⟩ := h
  have hguarded := hunits unit hmem
  cases unit with
  | create n lifecycle s =>
    cases s with
    | none => cases herrand
    | some s =>
      cases herrand
      exact hguarded _ rfl
  | remove n mode s =>
    cases s with
    | none => cases herrand
    | some s =>
      cases herrand
      exact hguarded.2 _ rfl
  | _ => cases herrand

/-- Such an errand does not fail, and comes down to others of its kind. -/
lemma Errand.StemsFrom.perform {units : List WorkUnit} (hunits : ∀ u ∈ units, u.IsGuarded)
    {e : Errand} (he : e.StemsFrom units) (now : Millis) (r : Run) :
    (∀ failure, (e.perform now r).outcome ≠ some (.failed failure)) ∧
      ∀ e' ∈ (e.perform now r).next, e'.StemsFrom units := by
  cases e with
  | create amount lifecycle =>
    rw [Errand.perform]
    split_ifs <;> simp [StemsFrom]
  | remove amount mode =>
    rw [Errand.perform]
    split_ifs <;> simp
  | spread change amount span =>
    have hspreads := IsSpreadOf.spreads hunits he
    rw [Errand.perform, hspreads.stepDelay_eq]
    simpa [StemsFrom] using ⟨amount, span, he, Nat.le_refl amount, rfl⟩
  | paced change left step =>
    cases left with
    | zero => simp [Errand.perform]
    | succ left =>
      obtain ⟨amount, span, hspread, hleft, hstep⟩ := he
      have hpause : (Errand.pause change left step).StemsFrom units :=
        ⟨amount, span, hspread, Nat.le_of_succ_le hleft, hstep⟩
      rw [Errand.perform]
      split_ifs
      · simp
      · simpa using ⟨change.stemsFrom_errand units, hpause⟩
  | pause change left step =>
    exact ⟨by simp [Errand.perform], by simpa [Errand.perform, StemsFrom] using he⟩
  | resume change left step wakeAt =>
    rw [Errand.perform]
    split_ifs
    · exact ⟨by simp, by simpa [StemsFrom] using he⟩
    · simp
  | units left since =>
    cases left with
    | nil => simp [Errand.perform, StemsFrom]
    | cons unit left =>
      obtain ⟨hunit, hleft⟩ := List.cons_subset.1 he
      have hrest : (Errand.units left since).StemsFrom units := hleft
      rw [Errand.perform]
      split_ifs
      · simp [StemsFrom]
      · simpa using ⟨WorkUnit.stemsFrom_errand hunit, hrest⟩
  | scenario work =>
    exact ⟨by simp [Errand.perform], by simpa [Errand.perform, StemsFrom] using he⟩
  | _ => simp [Errand.perform, StemsFrom]

/-! ### Operations -/

/-- The operation carries out some work units, and has not failed. -/
structure Operation.StemsFrom (units : List WorkUnit) (o : Operation) : Prop where
  agenda : ∀ e ∈ o.agenda, e.StemsFrom units
  outcome : ∀ failure, o.outcome ≠ .failed failure

/-- Carrying out work units does not fail. -/
lemma Operation.StemsFrom.step {units : List WorkUnit} (hunits : ∀ u ∈ units, u.IsGuarded)
    {o : Operation} (h : o.StemsFrom units) (now : Millis) (r : Run) :
    (o.step now r).2.1.StemsFrom units := by
  have hstepped := o.stepped now r
  generalize o.step now r = s at hstepped
  cases hstepped with
  | givesUp => exact ⟨fun _ he => absurd he List.not_mem_nil, fun _ => Outcome.noConfusion⟩
  | ends => exact ⟨h.agenda, h.outcome⟩
  | @performs e rest o' _ hagenda hgoes hends =>
    obtain ⟨he, hrest⟩ := List.forall_mem_cons.1 (hagenda ▸ h.agenda)
    obtain ⟨hfails, hnext⟩ := he.perform hunits now r
    cases houtcome : (e.perform now r).outcome with
    | some outcome =>
      rw [hends _ houtcome]
      refine ⟨fun _ he => absurd he List.not_mem_nil, fun failure heq => ?_⟩
      exact hfails failure (houtcome.trans (congrArg some heq))
    | none =>
      rw [hgoes houtcome]
      exact ⟨List.forall_mem_append.2 ⟨hnext, hrest⟩, h.outcome⟩

namespace World

variable {w v : World σ}

/-! ### Worlds -/

/-- One thing that happens to a world: a step, or something is asked of it. -/
def Goes (w v : World σ) : Prop := Step w v ∨ Call w v

lemma goes_of_steps (h : Steps w v) : Relation.ReflTransGen Goes w v := by
  induction h with
  | refl => exact .refl
  | tail _ hstep ih => exact ih.tail (.inl hstep)

lemma nextOperation_turn (a : Actor σ) (others : List (Actor σ)) :
    (w.turn a others).nextOperation = w.nextOperation := by
  cases a with
  | user i u =>
    cases hr : w.run? i with
    | none => simp [turn, hr]
    | some r =>
      have hkeeps := keeps_foldl (keeps_applyEffect i (u.step (w.viewOf r u)).1)
        (u.step (w.viewOf r u)).2 w
      simp only [turn, hr]
      split_ifs <;> exact hkeeps.nextOperation
  | operation o =>
    cases hr : w.run? o.run with
    | none => simp [turn, hr]
    | some r =>
      have hkeeps := keeps_foldl (keeps_applyAct o.run) (o.step w.now r).2.2
        (w.setRun o.run (o.step w.now r).1)
      simp only [turn, hr]
      split_ifs
      · exact (keeps_dropIfFree _ _).nextOperation.trans hkeeps.nextOperation
      · exact hkeeps.nextOperation
      · exact hkeeps.nextOperation
  | watch i tick =>
    cases hr : w.run? i with
    | none => simp [turn, hr]
    | some r =>
      simp only [turn, hr]
      split_ifs <;> rfl
  | alarm i due =>
    cases hr : w.run? i with
    | none => simp [turn, hr]
    | some r => simp [turn, hr, setRun]

lemma Step.nextOperation (h : Step w v) : v.nextOperation = w.nextOperation := by
  cases h with
  | turn hactors hready => exact nextOperation_turn _ _
  | wait hnow => rfl

lemma mem_submit {i : Nat} {agenda : List Errand} {horizon : Option Millis} {o : Operation}
    (ho : .operation o ∈ (w.submit i agenda horizon).2.actors) :
    .operation o ∈ w.actors ∨
      o = { id := w.nextOperation, run := i, agenda, limit := horizon.map (w.now + ·) } := by
  simpa [submit] using ho

/-- What is asked of a world leaves the outcomes alone, and any operation that is new has the next
number. -/
lemma Call.operations (h : Call w v) :
    v.outcomes = w.outcomes ∧ w.nextOperation ≤ v.nextOperation ∧
      ∀ o, .operation o ∈ v.actors →
        .operation o ∈ w.actors ∨ o.id = w.nextOperation ∧ w.nextOperation < v.nextOperation := by
  have hkeeps : ∀ {v : World σ}, w.Keeps v → v.outcomes = w.outcomes ∧
      w.nextOperation ≤ v.nextOperation ∧ ∀ o, .operation o ∈ v.actors →
        .operation o ∈ w.actors ∨ o.id = w.nextOperation ∧ w.nextOperation < v.nextOperation :=
    fun h => ⟨h.outcomes, Nat.le_of_eq h.nextOperation.symm, fun o ho => .inl (h.actors ▸ ho)⟩
  cases h with
  | cast b => exact hkeeps (w.keeps_cast b)
  | openRun context htemplate =>
    refine ⟨rfl, Nat.le_refl _, fun o ho => .inl ?_⟩
    simpa [World.openRun] using ho
  | submit horizon hrun hagenda =>
    refine ⟨rfl, Nat.le_succ _, fun o ho => ?_⟩
    rcases mem_submit ho with hold | rfl
    · exact .inl hold
    · exact .inr ⟨rfl, Nat.lt_succ_self _⟩
  | raise i => exact hkeeps (w.keeps_raise i)
  | raiseAt due hrun =>
    refine ⟨rfl, Nat.le_refl _, fun o ho => .inl ?_⟩
    simpa [World.raiseAt] using ho
  | abort i => exact hkeeps (w.keeps_abort i)
  | release i => exact hkeeps (w.keeps_release i)
  | log m => exact hkeeps (w.keeps_log m "")

/-- The operations under way have been numbered. -/
lemma Reachable.id_lt (hw : w.Reachable) :
    ∀ o, .operation o ∈ w.actors → o.id < w.nextOperation := by
  induction hw with
  | empty _ hactors => exact fun o ho => absurd (hactors ▸ ho) List.not_mem_nil
  | @step w v _ hstep ih =>
    rw [hstep.nextOperation]
    cases hstep.operates with
    | rests hold houtcomes => exact fun o ho => ih o (hold o ho)
    | @goesOn o r ho hr hready hended hold houtcomes =>
      intro o' ho'
      rcases hold o' ho' with hold | rfl
      · exact ih o' hold
      · rw [(o.later_step w.now r).2.1]
        exact ih o ho
    | ends ho hr hready hended hold houtcomes => exact fun o ho => ih o (hold o ho)
  | call _ hcall ih =>
    obtain ⟨-, hle, hactors⟩ := hcall.operations
    intro o ho
    rcases hactors o ho with hold | ⟨hid, hlt⟩
    · exact Nat.lt_of_lt_of_le (ih o hold) hle
    · exact hid ▸ hlt

/-- An operation carries out some work units, and comes to no failure. -/
structure Guards (units : List WorkUnit) (id : Nat) (w : World σ) : Prop where
  issued : id < w.nextOperation
  operations : ∀ o, .operation o ∈ w.actors → o.id = id → o.StemsFrom units
  outcome : ∀ failure, w.outcome? id ≠ some (.failed failure)

lemma Guards.step {units : List WorkUnit} (hunits : ∀ u ∈ units, u.IsGuarded) {id : Nat}
    (h : Guards units id w) (hstep : Step w v) : Guards units id v := by
  have hissued : id < v.nextOperation := hstep.nextOperation ▸ h.issued
  have hsame : v.outcomes = w.outcomes → ∀ failure, v.outcome? id ≠ some (.failed failure) := by
    intro houtcomes
    rw [outcome?, houtcomes]
    exact h.outcome
  cases hstep.operates with
  | rests hold houtcomes =>
    exact ⟨hissued, fun o ho => h.operations o (hold o ho), hsame houtcomes⟩
  | @goesOn o r ho hr hready hended hold houtcomes =>
    refine ⟨hissued, fun o' ho' hid => ?_, hsame houtcomes⟩
    rcases hold o' ho' with hold | rfl
    · exact h.operations o' hold hid
    · rw [(o.later_step w.now r).2.1] at hid
      exact (h.operations o ho hid).step hunits w.now r
  | @ends o r ho hr hready hended hold houtcomes =>
    refine ⟨hissued, fun o ho => h.operations o (hold o ho), fun failure hfailed => ?_⟩
    rw [outcome?, houtcomes, List.lookup_cons] at hfailed
    split at hfailed
    next hid =>
      have hstems := (h.operations o ho (beq_iff_eq.1 hid).symm).step hunits w.now r
      exact hstems.outcome failure (Option.some.inj hfailed)
    next => exact h.outcome failure hfailed

lemma Guards.call {units : List WorkUnit} {id : Nat} (h : Guards units id w) (hcall : Call w v) :
    Guards units id v := by
  obtain ⟨houtcomes, hle, hactors⟩ := hcall.operations
  refine ⟨Nat.lt_of_lt_of_le h.issued hle, fun o ho hid => ?_, ?_⟩
  · rcases hactors o ho with hold | ⟨hid', -⟩
    · exact h.operations o hold hid
    · exact absurd (hid.symm.trans hid') (Nat.ne_of_lt h.issued)
  · rw [outcome?, houtcomes]
    exact h.outcome

lemma Guards.goes {units : List WorkUnit} (hunits : ∀ u ∈ units, u.IsGuarded) {id : Nat}
    (h : Guards units id w) (hgoes : Relation.ReflTransGen Goes w v) : Guards units id v := by
  induction hgoes with
  | refl => exact h
  | tail _ hlast ih => exact hlast.elim (ih.step hunits) ih.call

/-- It does so from the beginning. -/
lemma guards_submit (hw : w.Reachable) (hnew : w.outcome? w.nextOperation = none) (i : Nat)
    (units : List WorkUnit) (horizon : Option Millis) :
    Guards units w.nextOperation (w.submit i [.scenario units] horizon).2 where
  issued := Nat.lt_succ_self _
  operations o ho hid := by
    rcases mem_submit ho with hold | rfl
    · exact absurd hid (Nat.ne_of_lt (hw.id_lt o hold))
    · exact ⟨List.forall_mem_singleton.2 (List.Subset.refl units), fun _ => Outcome.noConfusion⟩
  outcome failure hfailed := by
    rw [show (w.submit i [.scenario units] horizon).2.outcome? w.nextOperation = none from hnew]
      at hfailed
    cases hfailed

end World

/-- In a scenario that compiles, however it repeats itself, there is someone to create or to remove
wherever that is spread over a time, the time fits 64 bits, and nobody is to be removed who ends by
themselves. So, whoever else acts in whatever order, and whenever the stop signal is raised,
carrying it out does not come to a failure; the pause between two single changes is computed without
a division by zero and without being cut off; and it is the whole quotient. -/
theorem Registry.guarded_of_compile {text : String} {units : Array WorkUnit}
    (h : (builtin : Registry ν).compile text = .ok units) :
    (∀ amount lifecycle span, .create amount lifecycle (some span) ∈ units →
      1 ≤ amount ∧ span ≤ 18446744073709551615) ∧
    (∀ amount mode span, .remove amount mode span ∈ units →
      mode ≠ .regular ∧ ∀ s, span = some s → 1 ≤ amount ∧ s ≤ 18446744073709551615) ∧
    ∀ {σ : Type} {w v : World σ} {i : Nat} {horizon : Option Millis}, w.Reachable →
      w.outcome? w.nextOperation = none →
      Relation.ReflTransGen World.Goes (w.submit i [.scenario units.toList] horizon).2 v →
      (∀ e, v.outcome? w.nextOperation ≠ some (.failed e)) ∧
      ∀ o, .operation o ∈ v.actors → o.id = w.nextOperation →
        (∀ change amount span, .spread change amount span ∈ o.agenda →
          amount ≠ 0 ∧ (Duration.ofMillis span).millis / amount ≤ maxMillis ∧
          stepDelay amount (.ofMillis span) = .ok (span / amount)) ∧
        ∀ change left step, .paced change left step ∈ o.agenda →
          ∃ unit ∈ units, ∃ amount span, unit.errand = .spread change amount span ∧
            step = span / amount := by
  obtain ⟨s, d, -, -, hmeans⟩ := exists_means_of_compile h
  have hunits := hmeans.isGuarded
  refine ⟨fun amount lifecycle span hmem => ?_, fun amount mode span hmem => ?_, ?_⟩
  · obtain ⟨hamount, hspan⟩ := hunits _ (Array.mem_toList_iff.2 hmem) span rfl
    exact ⟨hamount, Nat.le_of_lt_succ hspan⟩
  · obtain ⟨hmode, hspreads⟩ := hunits _ (Array.mem_toList_iff.2 hmem)
    exact ⟨hmode, fun s hs => ⟨(hspreads s hs).1, Nat.le_of_lt_succ (hspreads s hs).2⟩⟩
  · intro σ w v i horizon hw hnew hgoes
    have hguards := (World.guards_submit hw hnew i units.toList horizon).goes hunits hgoes
    refine ⟨hguards.outcome, fun o ho hid => ⟨fun change amount span he => ?_, ?_⟩⟩
    · have hspreads := IsSpreadOf.spreads hunits ((hguards.operations o ho hid).agenda _ he)
      refine ⟨Nat.ne_of_gt hspreads.1, ?_, hspreads.stepDelay_eq⟩
      rw [Duration.millis_ofMillis]
      exact hspreads.div_le
    · intro change left step he
      obtain ⟨amount, span, ⟨unit, hunit, herrand⟩, -, hstep⟩ :=
        (hguards.operations o ho hid).agenda _ he
      exact ⟨unit, Array.mem_toList_iff.1 hunit, amount, span, herrand, hstep⟩

/-- Seven naps over a minute, twice, and two of them removed over three seconds. -/
def spreadText : String :=
  "Repeat(times:2)\x7bCreateLoopedUsersOverTime(amount:7,minutes:1);\x7d" ++
    "RemoveLoopedUsersOverTime(amount:2,seconds:3);"

def spreadUnits : Array WorkUnit :=
  #[.create 7 .looped (some 60000), .create 7 .looped (some 60000), .remove 2 .looped (some 3000)]

namespace World

/-- A run of naps on which that is carried out. -/
def spreading : World Unit :=
  ((napBase.openRun 0 { runId := "1" }).2.submit 0 [.scenario spreadUnits.toList] none).2

/-- It is stopped within its first work unit. -/
def spreadStopped : World Unit :=
  stepUntil (fun _ => false) 60000 1000
    (spreading.stepUntil (fun _ => false) 20000 1000 |>.raise 0).2

end World

theorem Registry.guarded_of_spreadText :
    (builtin : Registry Empty).compile spreadText = .ok spreadUnits ∧
      (1 ≤ 2 ∧ 3000 ≤ 18446744073709551615) ∧
      (World.spreadStopped.outcome? 0).isSome ∧
      ∀ e, World.spreadStopped.outcome? 0 ≠ some (.failed e) := by
  have hcompiled : (builtin : Registry Empty).compile spreadText = .ok spreadUnits := by
    decide +kernel
  have hopened : (World.napBase.openRun 0 { runId := "1" }).2.Reachable :=
    .call (.call (.empty rfl rfl) (.cast Controller.nap)) (.openRun _ (by decide +kernel))
  have hgoes : Relation.ReflTransGen World.Goes World.spreading World.spreadStopped :=
    ((World.goes_of_steps (World.steps_stepUntil _ _ _ _)).tail (.inr (.raise 0))).trans
      (World.goes_of_steps (World.steps_stepUntil _ _ _ _))
  obtain ⟨-, hremoved, hrun⟩ := guarded_of_compile hcompiled
  obtain ⟨hfails, -⟩ := hrun hopened (by decide +kernel) hgoes
  exact ⟨hcompiled, (hremoved 2 .looped (some 3000) (by simp [spreadUnits])).2 3000 rfl,
    by decide +kernel, hfails⟩

end LoadTest
