import LoadTest.Proofs.Guarding
import LoadTest.Proofs.Resting

/-!
# One operation among others

An operation keeps its number while it is under way, and nobody else has that number. Whoever else
takes a turn, and whatever is asked from outside, leaves the operation as it is. By its own turn it
goes one step further, or ends with an outcome that stays. A chronicle keeps what is noted of such
happenings one after another.
-/

namespace LoadTest

variable {σ : Type}

namespace World

variable {w v : World σ} {o : Operation} {others rest : List (Actor σ)}

/-- Whoever joins by a call is new, and an operation among them has the next number. -/
lemma Call.perm (h : Call w v) :
    ∃ new, v.actors.Perm (new ++ w.actors) ∧
      ∀ p, .operation p ∈ new → p.id = w.nextOperation ∧ w.nextOperation < v.nextOperation := by
  have hsame (hactors : v.actors = w.actors) : ∃ new, v.actors.Perm (new ++ w.actors) ∧
      ∀ p, .operation p ∈ new → p.id = w.nextOperation ∧ w.nextOperation < v.nextOperation :=
    ⟨[], by simp [hactors], by simp⟩
  cases h with
  | cast b => exact hsame (keeps_cast w b).actors
  | openRun context htemplate =>
    exact ⟨[.watch w.runs.length w.now], List.perm_append_comm, by simp⟩
  | @submit i agenda horizon hrun hagenda =>
    let p : Operation :=
      { id := w.nextOperation, run := i, agenda, limit := horizon.map (w.now + ·) }
    refine ⟨[.operation p], List.perm_append_comm, ?_⟩
    intro q hq
    obtain rfl : q = p := by simpa using hq
    exact ⟨rfl, Nat.lt_succ_self _⟩
  | raise i => exact hsame (keeps_raise w i).actors
  | @raiseAt i due hrun => exact ⟨[.alarm i due], .refl _, by simp⟩
  | abort i => exact hsame (keeps_abort w i).actors
  | release i => exact hsame (keeps_release w i).actors
  | log m => exact hsame rfl

/-- An operation is under way, and nobody else has its number. -/
structure UnderWay (w : World σ) (o : Operation) (others : List (Actor σ)) : Prop where
  actors : w.actors.Perm (.operation o :: others)
  alone : ∀ p, .operation p ∈ others → p.id ≠ o.id
  issued : o.id < w.nextOperation
  pending : w.outcome? o.id = none

/-- The operation of a number has come to an outcome. -/
structure HasEnded (w : World σ) (id : Nat) (outcome : Outcome) : Prop where
  gone : ∀ p, .operation p ∈ w.actors → p.id ≠ id
  issued : id < w.nextOperation
  outcome : w.outcome? id = some outcome

/-- Turns of others leave the outcome of a number alone. -/
lemma outcome?_turn (hw : w.Staffed) {a : Actor σ} (ha : a ∈ w.actors) {id : Nat}
    (hid : ∀ p, a = .operation p → p.id ≠ id) (rest : List (Actor σ)) :
    (w.turn a rest).outcome? id = w.outcome? id := by
  cases a with
  | operation p =>
    obtain ⟨r, hr⟩ := hw.exists_run ha
    cases hended : (p.step w.now r).2.1.isEnded with
    | true =>
      obtain ⟨-, -, -, -, houtcomes⟩ := turn_operation_ends rest hr hended
      have hne : id ≠ (p.step w.now r).2.1.id := by
        rw [(p.later_step w.now r).2.1]
        exact (hid p rfl).symm
      rw [Inv.outcome?_cons houtcomes, if_neg hne]
    | false =>
      obtain ⟨-, -, houtcomes⟩ := turn_operation_goesOn rest hr hended
      rw [outcome?, houtcomes, outcome?]
  | user i u => rw [outcome?, (operations_turn rfl rest).1, outcome?]
  | watch i tick => rw [outcome?, (operations_turn rfl rest).1, outcome?]
  | alarm i due => rw [outcome?, (operations_turn rfl rest).1, outcome?]

/-- What is left of a turn, or launched by it, has another number if the actor has. -/
lemma ne_of_succeeds {a : Actor σ} {id : Nat} (hid : ∀ p, a = .operation p → p.id ≠ id)
    {p : Operation} (h : w.Succeeds a (.operation p) ∨ w.Launches a (.operation p)) :
    p.id ≠ id := by
  obtain h | h := h
  · cases h with
    | @operation q r hr hgoes =>
      rw [(q.later_step w.now r).2.1]
      exact hid q rfl
  · cases h

namespace UnderWay

lemma mem (h : w.UnderWay o others) : .operation o ∈ w.actors :=
  h.actors.mem_iff.2 (List.mem_cons_self ..)

/-- The first ready actor is the operation, or one of the others. -/
lemma first_cases (h : w.UnderWay o others) {a : Actor σ}
    (hfirst : w.firstReady? w.actors = some (a, rest)) :
    (a = .operation o ∧ rest.Perm others) ∨
      ∃ others', others.Perm (a :: others') ∧ rest.Perm (.operation o :: others') ∧
        ∀ p, a = .operation p → p.id ≠ o.id := by
  have hperm := (perm_of_firstReady? hfirst).symm.trans h.actors
  by_cases ha : a = .operation o
  · subst ha
    exact .inl ⟨rfl, hperm.cons_inv⟩
  · have hmem : a ∈ others := by
      have hcons := hperm.mem_iff.1 (List.mem_cons_self ..)
      simpa [ha] using hcons
    obtain ⟨before, after, rfl⟩ := List.append_of_mem hmem
    refine .inr ⟨before ++ after, List.perm_middle, ?_, ?_⟩
    · have hswap : (a :: rest).Perm (a :: .operation o :: (before ++ after)) :=
        hperm.trans ((List.perm_middle.cons _).trans (.swap ..))
      exact hswap.cons_inv
    · rintro p rfl
      exact h.alone p hmem

/-- Someone else takes a turn. -/
lemma turn_other (h : w.UnderWay o others) (hw : w.Staffed) {a : Actor σ} {others' : List (Actor σ)}
    (ha : a ∈ w.actors) (hothers : others.Perm (a :: others'))
    (hrest : rest.Perm (.operation o :: others')) (hid : ∀ p, a = .operation p → p.id ≠ o.id) :
    ∃ others, (w.turn a rest).UnderWay o others := by
  obtain ⟨new, hactors, hnew⟩ := (hw.lineup ha rest).perm
  refine ⟨new ++ others', ?_, ?_, ?_, ?_⟩
  · exact hactors.trans ((hrest.append_left new).trans List.perm_middle)
  · intro p hp
    obtain hp | hp := List.mem_append.1 hp
    · exact ne_of_succeeds hid (hnew _ hp)
    · exact h.alone p (hothers.mem_iff.2 (List.mem_cons_of_mem _ hp))
  · rw [nextOperation_turn]
    exact h.issued
  · rw [outcome?_turn hw ha hid]
    exact h.pending

/-- The operation takes its turn, and ends by it. -/
lemma turn_ends (h : w.UnderWay o others) {r : Run} (hr : w.run? o.run = some r)
    (hrest : rest.Perm others) (hended : (o.step w.now r).2.1.isEnded = true) :
    (w.turn (.operation o) rest).HasEnded o.id (o.step w.now r).2.1.outcome ∧
      ∃ q, (w.turn (.operation o) rest).run? o.run = some q ∧
        q.isRaised = (o.step w.now r).1.isRaised := by
  obtain ⟨q, hq, hfreed, hactors, houtcomes⟩ := turn_operation_ends rest hr hended
  rw [(o.later_step w.now r).2.1] at houtcomes
  refine ⟨⟨?_, ?_, ?_⟩, q, hq, ?_⟩
  · intro p hp
    rw [hactors] at hp
    obtain hp | hp := List.mem_append.1 hp
    · exact h.alone p (hrest.mem_iff.1 hp)
    · obtain ⟨t, ticket, lifecycle, -, -, hp⟩ := mem_newcomers hp
      cases hp
  · rw [nextOperation_turn]
    exact h.issued
  · rw [Inv.outcome?_cons houtcomes, if_pos rfl]
  · obtain rfl | ⟨pool, -, rfl⟩ := hfreed <;> rfl

/-- The operation takes its turn, and goes on. -/
lemma turn_goesOn (h : w.UnderWay o others) {r : Run} (hr : w.run? o.run = some r)
    (hrest : rest.Perm others) (hended : (o.step w.now r).2.1.isEnded = false) :
    (∃ others, (w.turn (.operation o) rest).UnderWay (o.step w.now r).2.1 others) ∧
      (w.turn (.operation o) rest).run? o.run = some (o.step w.now r).1 := by
  obtain ⟨hrun, -, houtcomes⟩ := turn_operation_goesOn rest hr hended
  refine ⟨⟨rest ++ w.newcomers o.run (o.step w.now r).1 (o.step w.now r).2.2, ?_, ?_, ?_, ?_⟩, hrun⟩
  · exact perm_turn_operation rest hr hended
  · intro p hp
    rw [(o.later_step w.now r).2.1]
    obtain hp | hp := List.mem_append.1 hp
    · exact h.alone p (hrest.mem_iff.1 hp)
    · obtain ⟨t, ticket, lifecycle, -, -, hp⟩ := mem_newcomers hp
      cases hp
  · rw [nextOperation_turn, (o.later_step w.now r).2.1]
    exact h.issued
  · rw [outcome?, houtcomes, (o.later_step w.now r).2.1]
    exact h.pending

lemma call (h : w.UnderWay o others) (hcall : Call w v) : ∃ others, v.UnderWay o others := by
  obtain ⟨new, hactors, hnew⟩ := hcall.perm
  refine ⟨new ++ others, ?_, ?_, ?_, ?_⟩
  · exact hactors.trans ((h.actors.append_left new).trans List.perm_middle)
  · intro p hp
    obtain hp | hp := List.mem_append.1 hp
    · rw [(hnew p hp).1]
      exact Nat.ne_of_gt h.issued
    · exact h.alone p hp
  · exact Nat.lt_of_lt_of_le h.issued hcall.operations.2.1
  · rw [outcome?, hcall.operations.1]
    exact h.pending

lemma idle (h : w.UnderWay o others) (now : Millis) : UnderWay { w with now } o others :=
  ⟨h.actors, h.alone, h.issued, h.pending⟩

end UnderWay

/-- An operation is under way as soon as it is asked for. -/
lemma underWay_submit (hw : w.Reachable) (hnew : w.outcome? w.nextOperation = none) (i : Nat)
    (agenda : List Errand) :
    (w.submit i agenda none).2.UnderWay { id := w.nextOperation, run := i, agenda } w.actors where
  actors := List.perm_append_comm
  alone p hp := Nat.ne_of_lt (hw.id_lt p hp)
  issued := Nat.lt_succ_self _
  pending := hnew

/-- What an operation has come to stays. -/
lemma HasEnded.lapse {id : Nat} {outcome : Outcome} (h : w.HasEnded id outcome) (hw : w.Staffed)
    (hlapse : Lapse w v) : v.HasEnded id outcome := by
  cases hlapse with
  | acts hacts =>
    cases hacts with
    | @turn a others hfirst =>
      have ha := mem_of_firstReady? hfirst
      have hid : ∀ p, a = .operation p → p.id ≠ id := by
        rintro p rfl
        exact h.gone p ha
      refine ⟨?_, ?_, ?_⟩
      · intro p hp
        obtain ⟨new, hactors, hnew⟩ := (hw.lineup ha others).perm
        obtain hp | hp := List.mem_append.1 (hactors.mem_iff.1 hp)
        · exact ne_of_succeeds hid (hnew _ hp)
        · exact h.gone p ((perm_of_firstReady? hfirst).mem_iff.2 (List.mem_cons_of_mem _ hp))
      · rw [nextOperation_turn]
        exact h.issued
      · rw [outcome?_turn hw ha hid]
        exact h.outcome
  | idle => exact ⟨h.gone, h.issued, h.outcome⟩
  | call _ hcall =>
    obtain ⟨new, hactors, hnew⟩ := hcall.perm
    refine ⟨?_, Nat.lt_of_lt_of_le h.issued hcall.operations.2.1, ?_⟩
    · intro p hp
      obtain hp | hp := List.mem_append.1 (hactors.mem_iff.1 hp)
      · rw [(hnew p hp).1]
        exact Nat.ne_of_gt h.issued
      · exact h.gone p hp
    · rw [outcome?, hcall.operations.1]
      exact h.outcome

/-! ### Chronicles -/

/-- What happens next in a world, with the actor whose turn it is, unless time passes or something
is asked from outside. -/
inductive Happens : World σ → Option (Actor σ) → World σ → Prop
  | acts {w : World σ} {a : Actor σ} {others : List (Actor σ)}
      (hfirst : w.firstReady? w.actors = some (a, others)) : Happens w (some a) (w.turn a others)
  | idle {w : World σ} {now : Millis} (hsettled : w.firstReady? w.actors = none)
      (hnow : w.now ≤ now) (hdue : ∀ a ∈ w.actors, ∀ t, deadline? a = some t → now ≤ t) :
      Happens w none { w with now }
  | call {w v : World σ} (hmidway : ∀ a ∈ w.actors, a.isMidway = false) (hcall : Call w v) :
      Happens w none v

lemma Happens.lapse {a : Option (Actor σ)} (h : Happens w a v) : Lapse w v := by
  cases h with
  | acts hfirst => exact .acts (.turn hfirst)
  | idle hsettled hnow hdue => exact .idle hsettled hnow hdue
  | call hmidway hcall => exact .call hmidway hcall

lemma Lapse.exists_happens (h : Lapse w v) : ∃ a, Happens w a v := by
  cases h with
  | acts hacts =>
    cases hacts with
    | turn hfirst => exact ⟨_, .acts hfirst⟩
  | idle hsettled hnow hdue => exact ⟨none, .idle hsettled hnow hdue⟩
  | call hmidway hcall => exact ⟨none, .call hmidway hcall⟩

lemma Happens.now_le {a : Option (Actor σ)} (h : Happens w a v) : w.now ≤ v.now := by
  cases h with
  | acts hfirst => exact Nat.le_of_eq now_of_turn.symm
  | idle hsettled hnow hdue => exact hnow
  | call hmidway hcall => exact Nat.le_of_eq hcall.now.symm

/-- The stop signal of the run at a place is raised. -/
def isRaised (w : World σ) (i : Nat) : Bool := (w.run? i).any Run.isRaised

lemma isRaised_eq {i : Nat} {r : Run} (hr : w.run? i = some r) : w.isRaised i = r.isRaised := by
  rw [isRaised, hr, Option.any_some]

/-- A signal that is raised stays so. -/
lemma Reachable.isRaised_happens (hw : w.Reachable) {a : Option (Actor σ)} (h : Happens w a v)
    {i : Nat} (hraised : w.isRaised i = true) : v.isRaised i = true := by
  obtain ⟨r, hr⟩ : ∃ r, w.run? i = some r := by
    refine Option.ne_none_iff_exists'.1 fun hnone => ?_
    rw [isRaised, hnone] at hraised
    cases hraised
  rw [isRaised_eq hr] at hraised
  obtain ⟨q, hq, hlater, -⟩ := hw.run_lapse h.lapse hr
  rw [isRaised_eq hq]
  exact hlater.1 hraised

/-- A world comes to another one, and what is noted of each thing that happens on the way. -/
inductive Chronicle {α : Type} (note : World σ → Option (Actor σ) → World σ → List α) :
    World σ → List α → World σ → Prop
  | refl (w : World σ) : Chronicle note w [] w
  | tail {w u v : World σ} {a : Option (Actor σ)} {log : List α} (h : Chronicle note w log u)
      (hnext : Happens u a v) : Chronicle note w (log ++ note u a v) v

section Chronicle

variable {α : Type} {note : World σ → Option (Actor σ) → World σ → List α} {log : List α}

lemma Chronicle.lapses (h : Chronicle note w log v) : Lapses w v := by
  induction h with
  | refl => exact .refl
  | tail _ hnext ih => exact ih.tail hnext.lapse

/-- Whatever happens later can be written down behind. -/
lemma Chronicle.extend {x : World σ} (h : Chronicle note w log v) (hx : Lapses v x) :
    ∃ more, Chronicle note w (log ++ more) x := by
  induction hx with
  | refl => exact ⟨[], by simpa using h⟩
  | tail _ hlapse ih =>
    obtain ⟨more, ih⟩ := ih
    obtain ⟨a, ha⟩ := hlapse.exists_happens
    exact ⟨more ++ note _ a _, by simpa using ih.tail ha⟩

/-- What each single happening preserves is preserved by all that is written down. -/
theorem Chronicle.preserves {P : World σ → List α → Prop}
    (hnext : ∀ u a x log, u.Reachable → P u log → Happens u a x → P x (log ++ note u a x))
    (hw : w.Reachable) {before : List α} (h : P w before) (hv : Chronicle note w log v) :
    P v (before ++ log) := by
  induction hv with
  | refl => simpa using h
  | tail hu hlast ih =>
    rw [← List.append_assoc]
    exact hnext _ _ _ _ (hw.lapses hu.lapses) ih hlast

/-- The next step of a world is what happens next, by its first ready actor if there is one. -/
lemma Staffed.happens_of_next? (hw : w.Staffed) {limit : Millis} (h : w.next? limit = some v) :
    Happens w ((w.firstReady? w.actors).map Prod.fst) v := by
  cases hfirst : w.firstReady? w.actors with
  | some first =>
    rw [next?, hfirst] at h
    cases h
    exact .acts hfirst
  | none =>
    cases hw.lapse_of_next? h with
    | acts hacts =>
      cases hacts with
      | turn hsome =>
        rw [hfirst] at hsome
        cases hsome
    | idle hsettled hnow hdue => exact .idle hsettled hnow hdue
    | call hmidway hcall => exact .call hmidway hcall

/-- What is noted while a world steps on. -/
def noted (note : World σ → Option (Actor σ) → World σ → List α) (limit : Millis) :
    (fuel : Nat) → World σ → List α
  | 0, _ => []
  | fuel + 1, w =>
    match w.next? limit with
    | some v => note w ((w.firstReady? w.actors).map Prod.fst) v ++ noted note limit fuel v
    | none => []

lemma noted_succ {limit : Millis} {n : Nat}
    (h : (stepUntil (fun _ => false) limit n w).next? limit = some v) :
    noted note limit (n + 1) w = noted note limit n w ++
      note (stepUntil (fun _ => false) limit n w)
        (((stepUntil (fun _ => false) limit n w).firstReady?
          (stepUntil (fun _ => false) limit n w).actors).map Prod.fst) v := by
  induction n generalizing w with
  | zero =>
    rw [stepUntil] at h
    simp [noted, stepUntil, h]
  | succ n ih =>
    cases hnext : w.next? limit with
    | none => simp [stepUntil, hnext] at h
    | some x =>
      have hsteps : stepUntil (fun _ => false) limit (n + 1) w =
          stepUntil (fun _ => false) limit n x := by simp [stepUntil, hnext]
      have hnoted (m : Nat) : noted note limit (m + 1) w =
          note w ((w.firstReady? w.actors).map Prod.fst) x ++ noted note limit m x := by
        simp [noted, hnext]
      rw [hsteps] at h ⊢
      rw [hnoted, hnoted, ih h, List.append_assoc]

/-- If nothing has been noted until a world rests, nothing is. -/
lemma noted_eq_nil {limit : Millis} {n : Nat}
    (hrest : (stepUntil (fun _ => false) limit n w).next? limit = none)
    (h : noted note limit n w = []) (m : Nat) : noted note limit m w = [] := by
  induction n generalizing w m with
  | zero =>
    rw [stepUntil] at hrest
    cases m <;> simp [noted, hrest]
  | succ n ih =>
    cases hnext : w.next? limit with
    | none => cases m <;> simp [noted, hnext]
    | some x =>
      simp only [noted, hnext, List.append_eq_nil_iff] at h
      simp only [stepUntil, hnext, if_neg Bool.false_ne_true] at hrest
      cases m with
      | zero => rfl
      | succ m => simp only [noted, hnext, h.1, ih hrest h.2 m, List.append_nil]

lemma Chronicle.steps (h : Chronicle note w log v) (hv : v.Reachable) (limit : Millis)
    (fuel : Nat) :
    Chronicle note w (log ++ noted note limit fuel v)
      (stepUntil (fun _ => false) limit fuel v) := by
  induction fuel generalizing v log with
  | zero => simpa [noted, stepUntil] using h
  | succ fuel ih =>
    cases hnext : v.next? limit with
    | none => simpa [noted, stepUntil, hnext] using h
    | some x =>
      have htail := h.tail (hv.staffed.happens_of_next? hnext)
      have hlater := ih htail (.step hv (step_of_next? hnext))
      simpa [noted, stepUntil, hnext] using hlater

/-- A world whose templates sleep in their cycles comes to rest, whatever is noted on the way. -/
lemma Reachable.exists_chronicle (hw : w.Reachable)
    (hsleeps : ∀ k t, w.template? k = some t → t.SleepsInCycles)
    (note : World σ → Option (Actor σ) → World σ → List α) (limit : Millis) :
    ∃ log v n, Chronicle note w log v ∧ v.next? limit = none ∧
      ∀ fuel, n ≤ fuel → stepUntil (fun _ => false) limit fuel w = v := by
  obtain ⟨_, _, v, hplays⟩ := hw.exists_plays hsleeps 0 limit
  obtain ⟨n, hn⟩ := hplays.exists_fuel
  have hv : Lapses w v := by
    rw [← (hn n (Nat.le_refl _)).1]
    exact hw.lapses_stepUntil _ _ _
  obtain ⟨log, hlog⟩ := (Chronicle.refl w : Chronicle note w [] w).extend hv
  exact ⟨log, v, n, by simpa using hlog, hplays.next?_eq, fun fuel hfuel => (hn fuel hfuel).1⟩

end Chronicle

/-- Nobody is ready in a world without a next step, and nobody will be in time. -/
lemma Staffed.settled_of_next? (hw : w.Staffed) {limit : Millis} (h : w.next? limit = none) :
    w.firstReady? w.actors = none ∧ ∀ a ∈ w.actors, ∀ t, deadline? a = some t → limit < t := by
  have hsettled : w.firstReady? w.actors = none := by
    cases hfirst : w.firstReady? w.actors with
    | none => rfl
    | some first => simp [next?, hfirst] at h
  refine ⟨hsettled, fun a ha t ht => ?_⟩
  obtain ⟨next, -, hfirst, hnext⟩ := hw.exists_next hsettled ha ht
  have hlt : limit < next := by
    by_contra hle
    rw [hnext limit (Nat.not_lt.1 hle)] at h
    cases h
  exact Nat.lt_of_lt_of_le hlt (hfirst a ha t ht)

/-- What may happen next while an operation is under way: it takes its own turn, someone else takes
a turn or something is asked from outside, or time passes. -/
inductive UnderWay.Next (w v : World σ) (o : Operation) (others : List (Actor σ)) :
    Option (Actor σ) → Prop
  | own {rest : List (Actor σ)} (hrest : rest.Perm others)
      (hready : w.isReady (.operation o) = true) (hv : v = w.turn (.operation o) rest) :
      Next w v o others (some (.operation o))
  | other {a : Option (Actor σ)} {others' : List (Actor σ)}
      (hid : ∀ p, a = some (.operation p) → p.id ≠ o.id) (hv : v.UnderWay o others')
      (hnow : v.now = w.now) : Next w v o others a
  | idle {now : Millis} (hsettled : w.firstReady? w.actors = none) (hnow : w.now ≤ now)
      (hdue : ∀ t, deadline? (.operation o : Actor σ) = some t → now ≤ t)
      (hv : v = { w with now }) : Next w v o others none

lemma UnderWay.next (h : w.UnderWay o others) (hw : w.Staffed) {a : Option (Actor σ)}
    (hnext : Happens w a v) : UnderWay.Next w v o others a := by
  cases hnext with
  | @acts a rest hfirst =>
    obtain ⟨rfl, hrest⟩ | ⟨others', hothers, hrest, hid⟩ := h.first_cases hfirst
    · obtain ⟨_, _, -, -, hready⟩ := firstReady?_eq_some hfirst
      exact .own hrest hready rfl
    · obtain ⟨others, hv⟩ := h.turn_other hw (mem_of_firstReady? hfirst) hothers hrest hid
      refine .other ?_ hv now_of_turn
      rintro p hp
      exact hid p (Option.some.inj hp)
  | idle hsettled hnow hdue => exact .idle hsettled hnow (hdue _ h.mem) rfl
  | call hmidway hcall =>
    obtain ⟨others, hv⟩ := h.call hcall
    exact .other (by simp) hv hcall.now

end World

end LoadTest
