import LoadTest.Proofs.Aborting
import LoadTest.World.Stage
import Mathlib.Logic.Relation

/-!
# What a turn may change

Whoever takes a turn in a world leaves later runs behind. The operations under way stay the same,
unless the turn is that of an operation that ends, which leaves its outcome.
-/

namespace LoadTest

variable {σ : Type}

/-- An operation under way, by its id and the place of its run. -/
def Actor.task? : Actor σ → Option (Nat × Nat)
  | .operation o => some (o.id, o.run)
  | _ => none

namespace World

variable {w v : World σ}

def tasks (w : World σ) : List (Nat × Nat) := w.actors.filterMap Actor.task?

/-- The runs of a world have become later ones. -/
def Later (w v : World σ) : Prop := ∀ i, Option.Rel Run.Later (w.run? i) (v.run? i)

lemma Later.refl (w : World σ) : w.Later w := by
  intro i
  cases w.run? i with
  | none => exact .none
  | some r => exact .some (.refl r)

lemma Later.trans {x : World σ} (hwv : w.Later v) (hvx : v.Later x) : w.Later x := by
  intro i
  have hw := hwv i
  have hx := hvx i
  generalize w.run? i = a at hw
  generalize v.run? i = b at hw hx
  generalize x.run? i = c at hx
  cases hw with
  | none =>
    cases hx
    exact .none
  | some hrq =>
    cases hx with
    | some hqt => exact .some (hrq.trans hqt)

lemma later_of_runs (h : v.runs = w.runs) : w.Later v := by
  intro i
  have hi : v.run? i = w.run? i := congrArg (·[i]?) h
  rw [hi]
  exact Later.refl w i

lemma Later.run {i : Nat} {r : Run} (h : w.Later v) (hr : w.run? i = some r) :
    ∃ q, v.run? i = some q ∧ r.Later q := by
  have hi := h i
  rw [hr] at hi
  generalize v.run? i = b at hi
  cases hi with
  | some hq => exact ⟨_, rfl, hq⟩

lemma Later.run' {i : Nat} {q : Run} (h : w.Later v) (hq : v.run? i = some q) :
    ∃ r, w.run? i = some r ∧ r.Later q := by
  have hi := h i
  rw [hq] at hi
  generalize w.run? i = a at hi
  cases hi with
  | some hr => exact ⟨_, rfl, hr⟩

lemma run?_setRun {i j : Nat} {r q : Run} (hr : w.run? i = some r) :
    (w.setRun i q).run? j = if i = j then some q else w.run? j := by
  obtain ⟨hlt, -⟩ := List.getElem?_eq_some_iff.1 hr
  show (w.runs.set i q)[j]? = _
  rw [List.getElem?_set]
  split_ifs with hij
  · rfl
  · rfl

lemma run?_length (w : World σ) : w.run? w.runs.length = none :=
  List.getElem?_eq_none (Nat.le_refl _)

lemma run?_openRun {template : Nat} {context : RunContext} {i : Nat} :
    (w.openRun template context).2.run? i =
      if i = w.runs.length then some { template, context } else w.run? i := by
  show (w.runs ++ [({ template, context } : Run)])[i]? = _
  rcases Nat.lt_trichotomy i w.runs.length with hlt | rfl | hgt
  · rw [List.getElem?_append_left hlt, if_neg (Nat.ne_of_lt hlt)]
    rfl
  · simp
  · rw [if_neg (Nat.ne_of_gt hgt), run?, List.getElem?_eq_none (Nat.le_of_lt hgt)]
    exact List.getElem?_eq_none (by rw [List.length_append]; exact hgt)

lemma later_setRun {i : Nat} {r q : Run} (hr : w.run? i = some r) (hq : r.Later q) :
    w.Later (w.setRun i q) := by
  intro j
  rw [run?_setRun hr]
  split_ifs with hij
  · subst hij
    rw [hr]
    exact .some hq
  · exact Later.refl w j

/-! ### Effects and acts -/

/-- What everyone may change who is not an operation that ends: the runs become later ones, and
neither the actors nor the outcomes change. -/
structure Keeps (w v : World σ) : Prop where
  later : w.Later v
  actors : v.actors = w.actors
  outcomes : v.outcomes = w.outcomes
  finished : v.finished = w.finished
  nextOperation : v.nextOperation = w.nextOperation

lemma Keeps.refl (w : World σ) : w.Keeps w := ⟨.refl w, rfl, rfl, rfl, rfl⟩

lemma Keeps.trans {x : World σ} (hwv : w.Keeps v) (hvx : v.Keeps x) : w.Keeps x :=
  ⟨hwv.later.trans hvx.later, hvx.actors.trans hwv.actors, hvx.outcomes.trans hwv.outcomes,
    hvx.finished.trans hwv.finished, hvx.nextOperation.trans hwv.nextOperation⟩

lemma keeps_foldl {α : Type} {f : World σ → α → World σ} (hf : ∀ w a, Keeps w (f w a))
    (as : List α) (w : World σ) : w.Keeps (as.foldl f w) := by
  induction as generalizing w with
  | nil => exact .refl w
  | cons a as ih => exact (hf w a).trans (ih (f w a))

lemma keeps_setRun {i : Nat} {r q : Run} (hr : w.run? i = some r) (hq : r.Later q) :
    w.Keeps (w.setRun i q) := ⟨later_setRun hr hq, rfl, rfl, rfl, rfl⟩

lemma keeps_log (w : World σ) (m : Message) (user : String) : w.Keeps (w.log m user) :=
  ⟨later_of_runs rfl, rfl, rfl, rfl, rfl⟩

lemma keeps_publish (w : World σ) (i : Nat) : w.Keeps (w.publish i) := by
  rw [publish]
  cases w.run? i with
  | none => exact .refl w
  | some r => exact ⟨later_of_runs rfl, rfl, rfl, rfl, rfl⟩

lemma keeps_applyEffect (i : Nat) (u : User σ) (w : World σ) (e : Effect) :
    w.Keeps (applyEffect i u w e) := by
  rw [applyEffect]
  cases hr : w.run? i with
  | none => exact .refl w
  | some r =>
    cases e with
    | register mode =>
      have hlater : r.Later
          { r with
            pool := r.pool.issueId.2.register { id := r.pool.issueId.1, mode }
            arriving := r.arriving.erase u.ticket } :=
        ⟨id, r.pool.later_issueId.trans (Pool.later_register _ _)⟩
      simp only
      split_ifs
      · have hlog := keeps_log w (.late r.pool.issueId.1) ""
        refine hlog.trans (Keeps.trans ?_ (keeps_publish _ i))
        exact keeps_setRun (w := w.log (.late r.pool.issueId.1)) hr hlater
      · exact (keeps_setRun hr hlater).trans (keeps_publish _ i)
    | construct => exact ⟨later_of_runs rfl, rfl, rfl, rfl, rfl⟩
    | deed d =>
      cases d with
      | record label => exact ⟨later_of_runs rfl, rfl, rfl, rfl, rfl⟩
      | transaction labels succeeded elapsed =>
        have hlater : r.Later
            { r with
              context :=
                { r.context with shared := r.context.shared.countTransaction succeeded } } := by
          refine ⟨fun h => ?_, .refl _⟩
          cases succeeded <;> exact h
        exact (keeps_setRun hr hlater).trans ⟨later_of_runs rfl, rfl, rfl, rfl, rfl⟩
      | raise => exact keeps_setRun hr r.later_raise
    | log m => exact keeps_log _ _ _
    | discard => exact ⟨later_of_runs rfl, rfl, rfl, rfl, rfl⟩
    | leave =>
      have hleft := keeps_setRun hr (r.later_pool (r.pool.later_deregister u.id))
      simp only
      split_ifs
      · exact hleft.trans (keeps_publish _ _)
      · exact hleft

lemma keeps_applyAct (i : Nat) (w : World σ) (a : Act) : w.Keeps (applyAct i w a) := by
  cases a with
  | log m => exact w.keeps_log m ""
  | publish => exact w.keeps_publish i
  | launch ticket lifecycle => exact .refl w

lemma keeps_dropIfFree (w : World σ) (i : Nat) : w.Keeps (w.dropIfFree i) := by
  rw [dropIfFree]
  cases hr : w.run? i with
  | none => exact .refl w
  | some r =>
    have hdropped : r.Later { r with dropped := true } := ⟨id, .refl _⟩
    have haborted : r.Later { r with dropped := true, pool := r.pool.abortAll.2 } :=
      ⟨id, r.pool.later_abortAll⟩
    simp only
    split_ifs
    · exact (keeps_setRun hr haborted).trans (keeps_log _ _ _)
    · exact keeps_setRun hr hdropped
    · exact .refl w

lemma keeps_cast (w : World σ) (b : Behavior σ) : w.Keeps (w.cast b).2 := by
  rw [cast]
  split
  next => exact .refl _
  next => exact ⟨later_of_runs rfl, rfl, rfl, rfl, rfl⟩

lemma raise_eq {i : Nat} {r : Run} (hr : w.run? i = some r) :
    w.raise i = (!r.isRaised, w.setRun i r.raise.2) := by
  rw [raise, hr]
  rfl

lemma keeps_raise (w : World σ) (i : Nat) : w.Keeps (w.raise i).2 := by
  cases hr : w.run? i with
  | none =>
    rw [raise, hr]
    exact .refl w
  | some r =>
    rw [raise_eq hr]
    exact keeps_setRun hr r.later_raise

lemma abort_eq {i : Nat} {r : Run} (hr : w.run? i = some r) :
    w.abort i = (w.setRun i { r with pool := r.pool.abortAll.2 }).log
      ⟨.debug, s!"Aborted {r.pool.members.length} user(s)"⟩ := by
  rw [abort, hr]
  rfl

lemma keeps_abort (w : World σ) (i : Nat) : w.Keeps (w.abort i) := by
  cases hr : w.run? i with
  | none =>
    rw [abort, hr]
    exact .refl w
  | some r =>
    rw [abort_eq hr]
    exact (keeps_setRun hr (r.later_pool r.pool.later_abortAll)).trans (keeps_log _ _ _)

lemma keeps_release (w : World σ) (i : Nat) : w.Keeps (w.release i) := by
  rw [release]
  cases hr : w.run? i with
  | none => exact .refl w
  | some r =>
    have hreleased : r.Later { r with released := true } := ⟨id, .refl _⟩
    exact (keeps_setRun hr hreleased).trans (keeps_dropIfFree _ i)

/-! ### Turns -/

/-- How the operations under way and the outcomes may change by a turn. -/
inductive Progress (w v : World σ) : Prop
  /-- No operation ends. -/
  | goesOn (htasks : v.tasks.Perm w.tasks) (houtcomes : v.outcomes = w.outcomes)
      (hfinished : v.finished = w.finished)
  /-- An operation ends with an outcome, and is flagged as finished. -/
  | ends {id run : Nat} {outcome : Outcome} (htasks : w.tasks.Perm ((id, run) :: v.tasks))
      (houtcomes : v.outcomes = (id, outcome) :: w.outcomes)
      (hfinished : v.finished = id :: w.finished)

/-- What a turn leaves, apart from the outcome of an operation that ends. -/
structure Turned (w v : World σ) : Prop where
  later : w.Later v
  nextOperation : v.nextOperation = w.nextOperation
  progress : Progress w v

lemma Turned.trans_keeps {x : World σ} (h : w.Turned v) (hx : v.Keeps x) : w.Turned x where
  later := h.later.trans hx.later
  nextOperation := hx.nextOperation.trans h.nextOperation
  progress := by
    have htasks : x.tasks = v.tasks := congrArg (List.filterMap Actor.task?) hx.actors
    cases h.progress with
    | goesOn hperm houtcomes hfinished =>
      exact .goesOn (htasks ▸ hperm) (hx.outcomes.trans houtcomes) (hx.finished.trans hfinished)
    | ends hperm houtcomes hfinished =>
      exact .ends (htasks ▸ hperm) (hx.outcomes.trans houtcomes) (hx.finished.trans hfinished)

lemma Keeps.turned (h : w.Keeps v) : w.Turned v where
  later := h.later
  nextOperation := h.nextOperation
  progress :=
    .goesOn (.of_eq (congrArg (List.filterMap Actor.task?) h.actors)) h.outcomes h.finished

/-- The actors may change as long as the operations are the same. -/
lemma Keeps.turned_actors (h : w.Keeps v) {as : List (Actor σ)}
    (has : (as.filterMap Actor.task?).Perm w.tasks) : w.Turned { v with actors := as } where
  later := h.later.trans (later_of_runs rfl)
  nextOperation := h.nextOperation
  progress := .goesOn has h.outcomes h.finished

lemma tasks_perm {a : Actor σ} {others : List (Actor σ)} (hactors : w.actors.Perm (a :: others)) :
    w.tasks.Perm (a.task?.toList ++ others.filterMap Actor.task?) := by
  refine (hactors.filterMap Actor.task?).trans (.of_eq ?_)
  cases h : a.task? <;> simp [h]

lemma turned_user {i : Nat} {u : User σ} {others : List (Actor σ)}
    (hothers : (others.filterMap Actor.task?).Perm w.tasks) :
    w.Turned (w.turn (.user i u) others) := by
  cases hr : w.run? i with
  | none =>
    simp only [turn, hr]
    exact (Keeps.refl w).turned_actors hothers
  | some r =>
    have hkeeps := keeps_foldl (keeps_applyEffect i (u.step (w.viewOf r u)).1)
      (u.step (w.viewOf r u)).2 w
    simp only [turn, hr]
    split_ifs
    · exact hkeeps.turned_actors hothers
    · refine hkeeps.turned_actors ?_
      simpa [List.filterMap_cons, Actor.task?] using hothers
    · refine hkeeps.turned_actors ?_
      simpa [List.filterMap_cons, Actor.task?] using hothers

lemma turned_watch {i : Nat} {tick : Millis} {others : List (Actor σ)}
    (hothers : (others.filterMap Actor.task?).Perm w.tasks) :
    w.Turned (w.turn (.watch i tick) others) := by
  cases hr : w.run? i with
  | none =>
    simp only [turn, hr]
    exact (Keeps.refl w).turned_actors hothers
  | some r =>
    have habort := keeps_setRun hr (r.later_pool r.pool.later_abortAll)
    simp only [turn, hr]
    split_ifs
    · exact (Keeps.refl w).turned_actors hothers
    · exact (habort.trans (keeps_log _ _ "")).turned_actors hothers
    · refine (Keeps.refl w).turned_actors ?_
      simpa [List.filterMap_cons, Actor.task?] using hothers

lemma turned_alarm {i : Nat} {due : Millis} {others : List (Actor σ)}
    (hothers : (others.filterMap Actor.task?).Perm w.tasks) :
    w.Turned (w.turn (.alarm i due) others) := by
  cases hr : w.run? i with
  | none =>
    simp only [turn, hr]
    exact (Keeps.refl w).turned_actors hothers
  | some r =>
    simp only [turn, hr]
    exact (keeps_setRun hr r.later_raise).turned_actors hothers

/-- No user that an operation launches is an operation. -/
lemma filterMap_launched (w : World σ) (i : Nat) (r : Run) (acts : List Act) :
    (acts.flatMap (w.launched i r)).filterMap Actor.task? = [] := by
  rw [List.filterMap_eq_nil_iff]
  intro a ha
  obtain ⟨act, -, ha⟩ := List.mem_flatMap.1 ha
  unfold launched at ha
  split at ha
  next =>
    rw [List.mem_singleton.1 ha]
    rfl
  next => exact absurd ha List.not_mem_nil

lemma turned_operation {o : Operation} {others : List (Actor σ)} {r : Run}
    (hr : w.run? o.run = some r)
    (htasks : w.tasks.Perm ((o.id, o.run) :: others.filterMap Actor.task?)) :
    w.Turned (w.turn (.operation o) others) := by
  obtain ⟨hlater, hid, hrun⟩ := o.later_step w.now r
  have hkeeps := (keeps_setRun hr hlater).trans
    (keeps_foldl (keeps_applyAct o.run) (o.step w.now r).2.2 (w.setRun o.run (o.step w.now r).1))
  have hlaunched := w.filterMap_launched o.run (o.step w.now r).1 (o.step w.now r).2.2
  simp only [turn, hr]
  split_ifs
  · -- The outcome stands before the run may be let go of.
    refine Turned.trans_keeps ?_ (keeps_dropIfFree _ o.run)
    refine ⟨hkeeps.later.trans (later_of_runs rfl), hkeeps.nextOperation,
      @Progress.ends σ w _ o.id o.run (o.step w.now r).2.1.outcome ?_ ?_ ?_⟩
    · show w.tasks.Perm ((o.id, o.run) :: (others ++ _).filterMap Actor.task?)
      rw [List.filterMap_append, hlaunched, List.append_nil]
      exact htasks
    · rw [← hkeeps.outcomes, ← hid]
    · rw [← hkeeps.finished, ← hid]
  · refine hkeeps.turned_actors ?_
    simp only [List.cons_append, List.filterMap_cons, List.filterMap_append, hlaunched,
      List.append_nil, Actor.task?, hid, hrun]
    exact htasks.symm
  · refine hkeeps.turned_actors ?_
    simp only [List.filterMap_append, hlaunched, List.append_nil, List.filterMap_cons,
      List.filterMap_nil, Actor.task?, hid, hrun]
    exact (List.perm_append_singleton _ _).trans htasks.symm

/-- A turn leaves later runs and lets operations go on or end. -/
theorem turned {a : Actor σ} {others : List (Actor σ)} (hactors : w.actors.Perm (a :: others))
    (hruns : ∀ task ∈ w.tasks, ∃ r, w.run? task.2 = some r) : w.Turned (w.turn a others) := by
  have htasks := tasks_perm hactors
  cases a with
  | user i u => exact turned_user htasks.symm
  | watch i tick => exact turned_watch htasks.symm
  | alarm i due => exact turned_alarm htasks.symm
  | operation o =>
    obtain ⟨r, hr⟩ := hruns (o.id, o.run) (htasks.mem_iff.2 (List.mem_cons_self ..))
    exact turned_operation hr htasks

/-! ### Steps -/

/-- A step of a world in any order of turns: any ready actor takes its turn, or time passes. -/
inductive Step : World σ → World σ → Prop
  | turn {w : World σ} {a : Actor σ} {before after : List (Actor σ)}
      (hactors : w.actors = before ++ a :: after) (hready : w.isReady a = true) :
      Step w (w.turn a (before ++ after))
  | wait {w : World σ} {now : Millis} (hnow : w.now ≤ now) : Step w { w with now }

abbrev Steps : World σ → World σ → Prop := Relation.ReflTransGen Step

lemma Step.turned (h : Step w v) (hruns : ∀ task ∈ w.tasks, ∃ r, w.run? task.2 = some r) :
    w.Turned v := by
  cases h with
  | turn hactors hready =>
    exact World.turned (hactors ▸ List.perm_middle) hruns
  | wait hnow => exact ⟨later_of_runs rfl, rfl, .goesOn (.refl _) rfl rfl⟩

lemma firstReady?_eq_some {as others : List (Actor σ)} {a : Actor σ}
    (h : w.firstReady? as = some (a, others)) :
    ∃ before after, as = before ++ a :: after ∧ others = before ++ after ∧ w.isReady a = true := by
  induction as generalizing others with
  | nil => cases h
  | cons b as ih =>
    rw [firstReady?] at h
    split_ifs at h with hready
    · cases h
      exact ⟨[], as, rfl, rfl, hready⟩
    · obtain ⟨⟨c, cs⟩, hc, heq⟩ := Option.map_eq_some_iff.1 h
      cases heq
      obtain ⟨before, after, rfl, rfl, hready⟩ := ih hc
      exact ⟨b :: before, after, rfl, rfl, hready⟩

lemma perm_of_firstReady? {as others : List (Actor σ)} {a : Actor σ}
    (h : w.firstReady? as = some (a, others)) : as.Perm (a :: others) := by
  obtain ⟨before, after, rfl, rfl, -⟩ := firstReady?_eq_some h
  exact List.perm_middle

lemma mem_of_firstReady? {as others : List (Actor σ)} {a : Actor σ}
    (h : w.firstReady? as = some (a, others)) : a ∈ as :=
  (perm_of_firstReady? h).mem_iff.2 (List.mem_cons_self ..)

/-- The next step of a world is one of them. -/
lemma step_of_next? {limit : Millis} (h : w.next? limit = some v) : Step w v := by
  rw [next?] at h
  split at h
  next a others hfirst =>
    cases h
    obtain ⟨before, after, hactors, rfl, hready⟩ := firstReady?_eq_some hfirst
    exact .turn hactors hready
  next =>
    split at h
    next t ht =>
      split_ifs at h
      cases h
      exact .wait (Nat.le_max_left _ _)
    next => cases h

lemma steps_stepUntil (stop : World σ → Bool) (limit : Millis) (fuel : Nat) (w : World σ) :
    Steps w (stepUntil stop limit fuel w) := by
  induction fuel generalizing w with
  | zero => exact .refl
  | succ fuel ih =>
    rw [stepUntil]
    split_ifs
    · exact .refl
    · split
      next v hv => exact .head (step_of_next? hv) (ih v)
      next => exact .refl

lemma steps_settle (w : World σ) : Steps w w.settle := steps_stepUntil _ _ _ _

lemma steps_pass (w : World σ) (duration : Millis) : Steps w (w.pass duration) :=
  (steps_stepUntil _ _ _ _).tail (.wait (Nat.le_max_left _ _))

lemma steps_await (w : World σ) (id : Nat) (limit : Millis) : Steps w (w.await id limit).2 := by
  unfold await
  simp only
  split
  next => exact steps_stepUntil _ _ _ _
  next => exact (steps_stepUntil _ _ _ _).tail (.wait (Nat.le_max_left _ _))

end World

end LoadTest
