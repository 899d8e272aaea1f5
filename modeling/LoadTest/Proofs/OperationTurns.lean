import LoadTest.Proofs.Members
import LoadTest.Proofs.UserTurns

/-!
# The turn of an operation

An errand launches users, counts those that have arrived, takes some out of the live ones, aborts
everyone, raises the stop signal, or leaves the run as it is. A creation is followed by its count,
and is on hold in between until its users have arrived.
-/

namespace LoadTest

variable {σ : Type}

/-- Is the errand the count of a creation? -/
def Errand.isCount : Errand → Bool
  | .count _ _ => true
  | _ => false

/-- Are users awaited that are to arrive? -/
def Hold.isArrivals : Hold → Bool
  | .arrivals _ _ => true
  | _ => false

def Act.ticket? : Act → Option Nat
  | .launch ticket _ => some ticket
  | _ => none

/-- The tickets of the users that some acts launch. -/
def tickets (acts : List Act) : List Nat := acts.filterMap Act.ticket?

lemma tickets_launch (ts : List Nat) (lifecycle : Lifecycle) :
    tickets (ts.map (.launch · lifecycle)) = ts := by
  induction ts with
  | nil => rfl
  | cons t ts ih =>
    rw [tickets] at ih
    simp [tickets, Act.ticket?, ih]

/-! ### Errands -/

/-- What an errand does to a run. -/
inductive Errand.Performed (r : Run) : Errand → Errand.Result → Prop
  | create {amount : Nat} {lifecycle : Lifecycle} {result : Result} (hraised : r.isRaised = false)
      (hrun : result.run = (r.launch amount).2)
      (hnext : result.next = [.count amount lifecycle.mode])
      (hhold : result.hold = .arrivals r.launched amount)
      (hacts : result.acts = (r.launch amount).1.map (.launch · lifecycle))
      (houtcome : result.outcome = none) : Performed r (.create amount lifecycle) result
  | count {amount : Nat} {mode : Mode} {result : Result}
      (hrun : result.run = { r with created := r.created + amount })
      (hnext : result.next = []) (hhold : result.hold = .free) (hacts : tickets result.acts = [])
      (houtcome : result.outcome = none) : Performed r (.count amount mode) result
  | remove {amount : Nat} {mode : Mode} {result : Result} (hraised : r.isRaised = false)
      (hrun : result.run =
        { r with
          pool := (r.pool.take amount mode).2.update .requestStop (r.pool.takenIds amount mode)
          removed := r.removed + (r.pool.takenIds amount mode).length })
      (hnext : result.next = []) (hhold : result.hold = .free) (hacts : tickets result.acts = [])
      (houtcome : result.outcome = none) : Performed r (.remove amount mode) result
  | abort {result : Result} (hrun : result.run = { r with pool := r.pool.abortAll.2 })
      (hnext : result.next = []) (hhold : result.hold = .free) (hacts : tickets result.acts = [])
      (houtcome : result.outcome = none) : Performed r .abort result
  | raise {result : Result} (hrun : result.run = r.raise.2) (hnext : result.next = [])
      (hhold : result.hold = .free) (hacts : tickets result.acts = []) : Performed r .raise result
  | idle {e : Errand} {result : Result} (hcount : e.isCount = false) (hrun : result.run = r)
      (hnext : ∀ e ∈ result.next, e.isCount = false) (hhold : result.hold.isArrivals = false)
      (hacts : tickets result.acts = []) (hremove : ∀ amount mode, e = .remove amount mode →
        r.isRaised = true) : Performed r e result

lemma Change.isCount_errand (c : Change) : c.errand.isCount = false := by cases c <;> rfl

lemma WorkUnit.isCount_errand (u : WorkUnit) : u.errand.isCount = false := by
  cases u with
  | create amount lifecycle span => cases span <;> rfl
  | remove amount mode span => cases span <;> rfl
  | _ => rfl

theorem Errand.performed (now : Millis) (r : Run) (e : Errand) :
    Performed r e (e.perform now r) := by
  cases e with
  | create amount lifecycle =>
    rw [perform]
    split_ifs with hraised
    · exact .idle rfl rfl (by simp) rfl rfl (by simp)
    · exact .create (by simpa using hraised) rfl rfl rfl rfl rfl
  | count amount mode => exact .count rfl rfl rfl rfl rfl
  | remove amount mode =>
    rw [perform]
    split_ifs with hraised
    · exact .idle rfl rfl (by simp) rfl rfl fun _ _ _ => hraised
    · refine .remove (by simpa using hraised) ?_ rfl rfl ?_ rfl
      · simp [Pool.takenIds]
      · simp only
        split_ifs <;> rfl
  | abort => exact .abort rfl rfl rfl rfl rfl
  | raise => exact .raise rfl rfl rfl rfl
  | spread change amount span =>
    rw [perform]
    cases stepDelay amount (.ofMillis span) with
    | error e => exact .idle rfl rfl (by simp) rfl rfl (by simp)
    | ok step => exact .idle rfl rfl (by simp [isCount]) rfl rfl (by simp)
  | paced change left step =>
    cases left with
    | zero => exact .idle rfl rfl (by simp [perform]) rfl rfl (by simp)
    | succ left =>
      rw [perform]
      split_ifs
      · exact .idle rfl rfl (by simp) rfl rfl (by simp)
      · exact .idle rfl rfl (by simpa using ⟨change.isCount_errand, rfl⟩) rfl rfl (by simp)
  | pause change left step => exact .idle rfl rfl (by simp [perform, isCount]) rfl rfl (by simp)
  | resume change left step wakeAt =>
    refine .idle rfl rfl ?_ rfl rfl (by simp)
    rw [perform]
    split_ifs <;> simp [isCount]
  | units left since =>
    cases left with
    | nil => exact .idle rfl rfl (by simp [perform, isCount]) rfl rfl (by simp)
    | cons unit left =>
      rw [perform]
      split_ifs
      · exact .idle rfl rfl (by simp [isCount]) rfl rfl (by simp)
      · exact .idle rfl rfl (by simpa using ⟨unit.isCount_errand, rfl⟩) rfl rfl (by simp)
  | scenario work => exact .idle rfl rfl (by simp [perform, isCount]) rfl rfl (by simp)
  | _ => exact .idle rfl rfl (by simp [perform]) rfl rfl (by simp)

/-! ### Steps -/

/-- A step of an operation gives up, only ends a hold, or performs the next errand. -/
inductive Operation.Stepped (o : Operation) (now : Millis) (r : Run) :
    Run × Operation × List Act → Prop
  | givesUp (hhold : o.hold.isOver now r = false) :
      Stepped o now r (r, { o with agenda := [], hold := .free, outcome := .timedOut }, [])
  | ends (hhold : o.hold.isOver now r = true) (hagenda : o.agenda = []) :
      Stepped o now r (r, { o with hold := .free }, [])
  | performs {e : Errand} {rest : List Errand} {o' : Operation}
      (hhold : o.hold.isOver now r = true) (hagenda : o.agenda = e :: rest)
      (hgoes : (e.perform now r).outcome = none →
        o' = { o with agenda := (e.perform now r).next ++ rest, hold := (e.perform now r).hold })
      (hends : ∀ outcome, (e.perform now r).outcome = some outcome →
        o' = { o with agenda := [], hold := .free, outcome }) :
      Stepped o now r ((e.perform now r).run, o', (e.perform now r).acts)

theorem Operation.stepped (o : Operation) (now : Millis) (r : Run) :
    Stepped o now r (o.step now r) := by
  rw [step]
  split_ifs with hover
  · exact .givesUp (by simpa using hover)
  · have hover' : o.hold.isOver now r = true := by simpa using hover
    split
    next hagenda => exact .ends hover' hagenda
    next e rest hagenda =>
      simp only
      cases houtcome : (e.perform now r).outcome with
      | some outcome =>
        refine .performs hover' hagenda (fun h => absurd (houtcome.symm.trans h) (by simp)) ?_
        rintro _ h
        rw [houtcome] at h
        cases h
        rfl
      | none =>
        refine .performs hover' hagenda (fun _ => rfl) fun _ h => ?_
        exact absurd (houtcome.symm.trans h) (by simp)

/-! ### Letting go of a run -/

/-- Nothing happens to a run, or else it is dropped. Then those within reach are aborted. -/
def Run.Freed (r q : Run) : Prop :=
  q = r ∨ ∃ pool, (pool = r.pool ∨ pool = r.pool.abortAll.2) ∧ q = { r with dropped := true, pool }

namespace World

variable {w : World σ} {i : Nat} {r : Run}

lemma apart_dropIfFree (w : World σ) (i : Nat) : Apart i w (w.dropIfFree i) := by
  rw [dropIfFree]
  split
  next => exact .refl i w
  next r hr =>
    simp only
    split_ifs
    · exact (Apart.setRun w i _).trans (apart_log _ _ "")
    · exact Apart.setRun w i _
    · exact .refl i w

lemma run?_dropIfFree (hr : w.run? i = some r) :
    ∃ q, (w.dropIfFree i).run? i = some q ∧ r.Freed q := by
  rw [dropIfFree, hr]
  simp only
  split_ifs
  · exact ⟨_, run?_setRun_self hr, .inr ⟨_, .inr rfl, rfl⟩⟩
  · exact ⟨_, run?_setRun_self hr, .inr ⟨_, .inl rfl, rfl⟩⟩
  · exact ⟨r, hr, .inl rfl⟩

/-! ### Turns -/

lemma apart_applyAct (i j : Nat) (w : World σ) (a : Act) : Apart i w (applyAct j w a) := by
  cases a with
  | log m => exact apart_log w m ""
  | publish => exact apart_publish w j
  | launch ticket lifecycle => exact .refl i w

lemma run?_foldl_applyAct (i j : Nat) (acts : List Act) (w : World σ) :
    (acts.foldl (applyAct j) w).run? i = w.run? i := by
  induction acts generalizing w with
  | nil => rfl
  | cons a acts ih =>
    rw [List.foldl_cons, ih]
    cases a with
    | log m => rfl
    | publish => exact w.run?_publish i j
    | launch ticket lifecycle => rfl

/-- The users that some acts launch. -/
def newcomers (w : World σ) (i : Nat) (r : Run) (acts : List Act) : List (Actor σ) :=
  acts.flatMap (w.launched i r)

lemma apart_turn_operation {o : Operation} {others : List (Actor σ)} :
    Apart o.run w (w.turn (.operation o) others) := by
  cases hr : w.run? o.run with
  | none =>
    simp only [turn, hr]
    exact .of_runs rfl rfl rfl
  | some r =>
    have hacts := (Apart.setRun w o.run (o.step w.now r).1).trans
      (apart_foldl (apart_applyAct o.run o.run) (o.step w.now r).2.2 _)
    simp only [turn, hr]
    split_ifs
    · refine hacts.trans (Apart.trans ?_ (apart_dropIfFree _ _))
      exact .of_runs rfl rfl rfl
    · exact hacts.trans (.of_runs rfl rfl rfl)
    · exact hacts.trans (.of_runs rfl rfl rfl)

/-- An operation that has ended leaves its outcome, and its run may be let go of. -/
lemma turn_operation_ends {o : Operation} (others : List (Actor σ)) (hr : w.run? o.run = some r)
    (hended : (o.step w.now r).2.1.isEnded = true) :
    ∃ q, (w.turn (.operation o) others).run? o.run = some q ∧ (o.step w.now r).1.Freed q ∧
      (w.turn (.operation o) others).actors =
        others ++ w.newcomers o.run (o.step w.now r).1 (o.step w.now r).2.2 ∧
      (w.turn (.operation o) others).outcomes =
        ((o.step w.now r).2.1.id, (o.step w.now r).2.1.outcome) :: w.outcomes := by
  have hkeeps := keeps_foldl (keeps_applyAct o.run) (o.step w.now r).2.2
    (w.setRun o.run (o.step w.now r).1)
  have hrun : ((o.step w.now r).2.2.foldl (applyAct o.run)
      (w.setRun o.run (o.step w.now r).1)).run? o.run = some (o.step w.now r).1 := by
    rw [run?_foldl_applyAct, run?_setRun_self hr]
  simp only [turn, hr, hended, if_true]
  generalize hv : (o.step w.now r).2.2.foldl (applyAct o.run) (w.setRun o.run (o.step w.now r).1) =
    v at hkeeps hrun
  set x : World σ :=
    { v with
      actors := others ++ (o.step w.now r).2.2.flatMap (w.launched o.run (o.step w.now r).1)
      outcomes := ((o.step w.now r).2.1.id, (o.step w.now r).2.1.outcome) :: v.outcomes
      finished := (o.step w.now r).2.1.id :: v.finished } with hx
  have hxrun : x.run? o.run = some (o.step w.now r).1 := hrun
  obtain ⟨q, hq, hfreed⟩ := run?_dropIfFree hxrun
  have hdrop := keeps_dropIfFree x o.run
  refine ⟨q, hq, hfreed, hdrop.actors, hdrop.outcomes.trans ?_⟩
  rw [hx, hkeeps.outcomes]
  rfl

/-- An operation that has not ended stays in front, unless it is on hold and may stay so. -/
lemma turn_operation_goesOn {o : Operation} (others : List (Actor σ)) (hr : w.run? o.run = some r)
    (hended : (o.step w.now r).2.1.isEnded = false) :
    (w.turn (.operation o) others).run? o.run = some (o.step w.now r).1 ∧
      (w.turn (.operation o) others).actors =
        (if (o.step w.now r).2.1.isReady w.now (o.step w.now r).1 then
          .operation (o.step w.now r).2.1 :: others ++
            w.newcomers o.run (o.step w.now r).1 (o.step w.now r).2.2
        else
          others ++ w.newcomers o.run (o.step w.now r).1 (o.step w.now r).2.2 ++
            [.operation (o.step w.now r).2.1]) ∧
      (w.turn (.operation o) others).outcomes = w.outcomes := by
  have hkeeps := keeps_foldl (keeps_applyAct o.run) (o.step w.now r).2.2
    (w.setRun o.run (o.step w.now r).1)
  have hnow : ((o.step w.now r).2.2.foldl (applyAct o.run)
      (w.setRun o.run (o.step w.now r).1)).now = w.now :=
    (apart_foldl (apart_applyAct o.run o.run) (o.step w.now r).2.2 _).now
  have hrun : ((o.step w.now r).2.2.foldl (applyAct o.run)
      (w.setRun o.run (o.step w.now r).1)).run? o.run = some (o.step w.now r).1 := by
    rw [run?_foldl_applyAct, run?_setRun_self hr]
  simp only [turn, hr, hended, if_neg Bool.false_ne_true, hnow]
  refine ⟨?_, apply_ite World.actors _ _ _, ?_⟩
  · split_ifs <;> exact hrun
  · split_ifs <;> exact hkeeps.outcomes

lemma perm_turn_operation {o : Operation} (others : List (Actor σ)) (hr : w.run? o.run = some r)
    (hended : (o.step w.now r).2.1.isEnded = false) :
    (w.turn (.operation o) others).actors.Perm
      (.operation (o.step w.now r).2.1 ::
        (others ++ w.newcomers o.run (o.step w.now r).1 (o.step w.now r).2.2)) := by
  obtain ⟨-, hactors, -⟩ := turn_operation_goesOn others hr hended
  rw [hactors]
  split_ifs
  · exact .refl _
  · exact List.perm_append_singleton _ _

end World

end LoadTest
