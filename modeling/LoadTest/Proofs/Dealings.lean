import LoadTest.Proofs.Resemblance
import LoadTest.Proofs.UnderWay

/-!
# All that is done to a run

Whoever takes a turn and whatever is asked from outside, what it comes to for a run is a sequence of
dealings of a few kinds. What holds of a new run and is kept by each kind of dealing holds of every
run, and what each of them lets only grow can only grow.
-/

namespace LoadTest

variable {σ : Type}

namespace Run

/-- One thing that is done to a run. -/
inductive Dealing : Run → Run → Prop
  /-- A callback of a user raises the signal, or a transaction is counted. -/
  | alike {r q : Run} (h : r.Alike q) : Dealing r q
  | arrives {r : Run} {ticket : Nat} (hticket : ticket ∈ r.arriving) (mode : Mode) :
      Dealing r
        { r with
          pool := r.pool.issueId.2.register { id := r.pool.nextId, mode }
          arriving := r.arriving.erase ticket }
  | leaves {r : Run} (id : UserId) : Dealing r { r with pool := r.pool.deregister id }
  | launches {r : Run} (amount : Nat) : Dealing r (r.launch amount).2
  | counts {r : Run} (amount : Nat) : Dealing r { r with created := r.created + amount }
  | removes {r : Run} (amount : Nat) (mode : Mode) :
      Dealing r
        { r with
          pool := (r.pool.take amount mode).2.update .requestStop (r.pool.takenIds amount mode)
          removed := r.removed + (r.pool.takenIds amount mode).length }
  | aborts {r : Run} : Dealing r { r with pool := r.pool.abortAll.2 }
  /-- Nobody holds the run any more, or it is gone. -/
  | letsGo {r : Run} (released dropped : Bool) : Dealing r { r with released, dropped }

abbrev Dealings : Run → Run → Prop := Relation.ReflTransGen Dealing

variable {r q t : Run}

lemma Freed.dealings (h : r.Freed q) : r.Dealings q := by
  obtain rfl | ⟨pool, rfl | rfl, rfl⟩ := h
  · exact .refl
  · exact .single (.letsGo r.released true)
  · exact (Relation.ReflTransGen.single .aborts).tail (.letsGo r.released true)

lemma dealings_perform (now : Millis) (r : Run) (e : Errand) :
    r.Dealings (e.perform now r).run := by
  cases e.performed now r with
  | create hraised hrun =>
    rw [hrun]
    exact .single (.launches _)
  | count hrun =>
    rw [hrun]
    exact .single (.counts _)
  | remove hraised hrun =>
    rw [hrun]
    exact .single (.removes _ _)
  | abort hrun =>
    rw [hrun]
    exact .single .aborts
  | raise hrun =>
    rw [hrun]
    exact .single (.alike (.raise r))
  | idle hcount hrun =>
    rw [hrun]

lemma dealings_step (o : Operation) (now : Millis) (r : Run) : r.Dealings (o.step now r).1 := by
  have hstepped := o.stepped now r
  generalize o.step now r = next at hstepped ⊢
  cases hstepped with
  | givesUp hhold => exact .refl
  | ends hhold hagenda => exact .refl
  | performs hhold hagenda hgoes hends => exact dealings_perform now r _

end Run

namespace World

variable {w v : World σ} {i : Nat} {r : Run}

lemma dealings_turn_user (hw : w.Staffed) {u : User σ} {others : List (Actor σ)}
    (hu : .user i u ∈ w.actors) (hr : w.run? i = some r) :
    ∃ q, (w.turn (.user i u) others).run? i = some q ∧ r.Dealings q := by
  have hended : u.isEnded = false := (hw.placed _ hu).1
  cases hlaunched : u.isLaunched with
  | true =>
    have hticket : u.ticket ∈ r.arriving :=
      (hw.run i r hr).awaited.mem_iff.1
        (List.mem_filterMap.2 ⟨_, hu, by simp [Actor.ticket?, hlaunched]⟩)
    exact ⟨_, (turn_launched others hr hlaunched).1, .single (.arrives hticket _)⟩
  | false =>
    cases hends : (w.stepUser r u).isEnded with
    | true =>
      obtain ⟨q, hrun, halike, -⟩ := turn_ends others hr hlaunched hended hends
      refine ⟨_, hrun, (Relation.ReflTransGen.single (.alike halike)).tail ?_⟩
      rw [← halike.pool]
      exact .leaves u.id
    | false =>
      obtain ⟨q, hrun, halike, -⟩ := turn_goesOn others hr hlaunched hended hends
      exact ⟨q, hrun, .single (.alike halike)⟩

lemma dealings_turn_operation {o : Operation} (others : List (Actor σ))
    (hr : w.run? o.run = some r) :
    ∃ q, (w.turn (.operation o) others).run? o.run = some q ∧ r.Dealings q := by
  cases hended : (o.step w.now r).2.1.isEnded with
  | true =>
    obtain ⟨q, hq, hfreed, -⟩ := turn_operation_ends others hr hended
    exact ⟨q, hq, (Run.dealings_step o w.now r).trans hfreed.dealings⟩
  | false =>
    obtain ⟨hq, -⟩ := turn_operation_goesOn others hr hended
    exact ⟨_, hq, Run.dealings_step o w.now r⟩

lemma dealings_turn_watch (tick : Millis) (others : List (Actor σ)) (hr : w.run? i = some r) :
    ∃ q, (w.turn (.watch i tick) others).run? i = some q ∧ r.Dealings q := by
  cases hdropped : r.dropped with
  | true => exact ⟨r, (turn_watch_dropped tick others hr hdropped).1, .refl⟩
  | false =>
    cases hraised : r.isRaised with
    | true => exact ⟨_, (turn_watch_raised tick others hr hdropped hraised).1, .single .aborts⟩
    | false => exact ⟨r, (turn_watch_waits tick others hr hdropped hraised).1, .refl⟩

/-- A turn is a sequence of dealings with each run. -/
lemma Staffed.dealings_turn (hw : w.Staffed) {a : Actor σ} {others : List (Actor σ)}
    (hactors : w.actors.Perm (a :: others)) (hr : w.run? i = some r) :
    ∃ q, (w.turn a others).run? i = some q ∧ r.Dealings q := by
  have ha : a ∈ w.actors := hactors.mem_iff.2 (List.mem_cons_self ..)
  obtain ⟨r', hr'⟩ := hw.exists_run ha
  obtain ⟨new, q', hturn⟩ := hw.replaces hactors hr'
  by_cases hi : i = a.place
  · subst hi
    cases a with
    | user j u => exact dealings_turn_user hw ha hr
    | operation o => exact dealings_turn_operation others hr
    | watch j tick => exact dealings_turn_watch tick others hr
    | alarm j due => exact ⟨_, (turn_alarm due others hr).1, .single (.alike (.raise r))⟩
  · exact ⟨r, (hturn.apart.others i hi).trans hr, .refl⟩

/-- So is whatever is asked from outside. -/
lemma Call.dealings (h : Call w v) (hr : w.run? i = some r) :
    ∃ q, v.run? i = some q ∧ r.Dealings q := by
  have hsame (heq : v.run? i = w.run? i) : ∃ q, v.run? i = some q ∧ r.Dealings q :=
    ⟨r, heq.trans hr, .refl⟩
  cases h with
  | cast b =>
    refine hsame ?_
    rw [World.cast]
    split <;> rfl
  | openRun context htemplate =>
    refine hsame ?_
    rw [run?_openRun, if_neg]
    rintro rfl
    exact absurd (w.run?_length.symm.trans hr) (by simp)
  | submit horizon hrun hagenda => exact hsame rfl
  | raise j =>
    by_cases hj : i = j
    · subst hj
      rw [raise_eq hr]
      exact ⟨_, run?_setRun_self hr, .single (.alike (.raise r))⟩
    · exact hsame ((w.apart_raise j).others i hj)
  | raiseAt due hrun => exact hsame rfl
  | abort j =>
    by_cases hj : i = j
    · subst hj
      rw [abort_eq hr]
      exact ⟨_, run?_setRun_self hr, .single .aborts⟩
    · exact hsame ((w.apart_abort j).others i hj)
  | release j =>
    by_cases hj : i = j
    · subst hj
      obtain ⟨q, hq, hfreed⟩ := run?_dropIfFree
        (run?_setRun_self (q := { r with released := true }) hr)
      refine ⟨q, ?_, (Relation.ReflTransGen.single (.letsGo true r.dropped)).trans hfreed.dealings⟩
      rw [World.release, hr]
      exact hq
    · exact hsame ((w.apart_release j).others i hj)
  | log m => exact hsame rfl

lemma Step.dealings (hw : w.Staffed) (h : Step w v) (hr : w.run? i = some r) :
    ∃ q, v.run? i = some q ∧ r.Dealings q := by
  cases h with
  | turn hactors hready => exact hw.dealings_turn (hactors ▸ List.perm_middle) hr
  | wait hnow => exact ⟨r, hr, .refl⟩

lemma Reachable.dealings_happens (hw : w.Reachable) {a : Option (Actor σ)} (h : Happens w a v)
    (hr : w.run? i = some r) : ∃ q, v.run? i = some q ∧ r.Dealings q := by
  cases h with
  | acts hfirst => exact hw.staffed.dealings_turn (perm_of_firstReady? hfirst) hr
  | idle hsettled hnow hdue => exact ⟨r, hr, .refl⟩
  | call hmidway hcall => exact hcall.dealings hr

lemma Reachable.dealings_lapses (hw : w.Reachable) (h : Lapses w v) (hr : w.run? i = some r) :
    ∃ q, v.run? i = some q ∧ r.Dealings q := by
  induction h with
  | refl => exact ⟨r, hr, .refl⟩
  | tail hu hlast ih =>
    obtain ⟨p, hp, hbefore⟩ := ih
    obtain ⟨a, ha⟩ := hlast.exists_happens
    obtain ⟨q, hq, hdealings⟩ := (hw.lapses hu).dealings_happens ha hp
    exact ⟨q, hq, hbefore.trans hdealings⟩

/-- A run is there before a turn. -/
lemma Staffed.exists_run_of_turn (hw : w.Staffed) {a : Actor σ} {others : List (Actor σ)}
    (hactors : w.actors.Perm (a :: others)) (hr : (w.turn a others).run? i = some r) :
    ∃ p, w.run? i = some p := by
  obtain ⟨r', hr'⟩ := hw.exists_run (hactors.mem_iff.2 (List.mem_cons_self ..))
  obtain ⟨new, q', hturn⟩ := hw.replaces hactors hr'
  by_cases hi : i = a.place
  · exact ⟨r', hi ▸ hr'⟩
  · exact ⟨r, (hturn.apart.others i hi).symm.trans hr⟩

/-- A run that was not there before a call is new. -/
lemma Call.exists_run (h : Call w v) (hr : v.run? i = some r) :
    (∃ p, w.run? i = some p) ∨ ∃ template context, r = { template, context } := by
  cases h with
  | cast b =>
    refine .inl ⟨r, ?_⟩
    rw [← hr, World.cast]
    split <;> rfl
  | @openRun template context htemplate =>
    rw [run?_openRun] at hr
    split_ifs at hr
    · exact .inr ⟨template, context, (Option.some.inj hr).symm⟩
    · exact .inl ⟨r, hr⟩
  | raise j => exact .inl (((w.keeps_raise j).later.run' hr).imp fun _ h => h.1)
  | abort j => exact .inl (((w.keeps_abort j).later.run' hr).imp fun _ h => h.1)
  | release j => exact .inl (((w.keeps_release j).later.run' hr).imp fun _ h => h.1)
  | _ => exact .inl ⟨r, hr⟩

/-- Every run was new once. -/
theorem Reachable.exists_dealings (hw : w.Reachable) (hr : w.run? i = some r) :
    ∃ template context, Run.Dealings { template, context } r := by
  induction hw generalizing r with
  | empty hruns hactors => simp [run?, hruns] at hr
  | @step w v hw hstep ih =>
    obtain ⟨p, hp⟩ : ∃ p, w.run? i = some p := by
      cases hstep with
      | wait hnow => exact ⟨r, hr⟩
      | turn hactors hready =>
        exact hw.staffed.exists_run_of_turn (hactors ▸ List.perm_middle) hr
    obtain ⟨q, hq, hdealings⟩ := hstep.dealings hw.staffed hp
    cases hq.symm.trans hr
    obtain ⟨template, context, hnew⟩ := ih hp
    exact ⟨template, context, hnew.trans hdealings⟩
  | @call w v hw hcall ih =>
    obtain ⟨p, hp⟩ | ⟨template, context, rfl⟩ := hcall.exists_run hr
    · obtain ⟨q, hq, hdealings⟩ := hcall.dealings hp
      cases hq.symm.trans hr
      obtain ⟨template, context, hnew⟩ := ih hp
      exact ⟨template, context, hnew.trans hdealings⟩
    · exact ⟨template, context, .refl⟩

end World

/-! ### What dealings keep -/

/-- A removal that takes nobody leaves the pool to the same members. -/
lemma Pool.take_nobody {p : Pool} {amount : Nat} {mode : Mode}
    (h : (p.takenIds amount mode).length = 0) :
    ((p.take amount mode).2.update .requestStop (p.takenIds amount mode)).draining = p.draining ∧
      ((p.take amount mode).2.update .requestStop (p.takenIds amount mode)).members.Perm
        p.members := by
  have htaken : (takeOldest mode amount p.live).1 = [] := by
    simpa [takenIds, take] using h
  have hperm := perm_takeOldest mode amount p.live
  rw [htaken, List.nil_append] at hperm
  rw [List.eq_nil_of_length_eq_zero h]
  refine ⟨by simp [update, take, publish, htaken], ?_⟩
  simpa [update, take, publish, htaken, members] using hperm.append_right p.draining

namespace Run

variable {r q : Run}

/-- What only ever grows in a run. -/
structure Grown (r q : Run) : Prop where
  launched : r.launched ≤ q.launched
  removed : r.removed ≤ q.removed
  aborted : r.pool.aborted = true → q.pool.aborted = true
  raised : r.isRaised = true → q.isRaised = true
  nextId : r.pool.nextId ≤ q.pool.nextId
  template : q.template = r.template

lemma Dealing.grown (h : Dealing r q) : r.Grown q := by
  cases h with
  | alike h =>
    obtain ⟨hraised, shared, rfl⟩ := h
    exact ⟨Nat.le_refl _, Nat.le_refl _, id, hraised, Nat.le_refl _, rfl⟩
  | arrives hticket mode =>
    exact ⟨Nat.le_refl _, Nat.le_refl _, id, id, Nat.le_succ _, rfl⟩
  | leaves id =>
    exact ⟨Nat.le_refl _, Nat.le_refl _, (r.pool.later_deregister id).1, fun h => h,
      Nat.le_of_eq (r.pool.nextId_deregister id).symm, rfl⟩
  | launches amount => exact ⟨Nat.le_add_right .., Nat.le_refl _, id, id, Nat.le_refl _, rfl⟩
  | counts amount => exact ⟨Nat.le_refl _, Nat.le_refl _, id, id, Nat.le_refl _, rfl⟩
  | removes amount mode =>
    exact ⟨Nat.le_refl _, Nat.le_add_right .., id, id, Nat.le_refl _, rfl⟩
  | aborts => exact ⟨Nat.le_refl _, Nat.le_refl _, fun _ => rfl, id, Nat.le_refl _, rfl⟩
  | letsGo released dropped =>
    exact ⟨Nat.le_refl _, Nat.le_refl _, id, id, Nat.le_refl _, rfl⟩

lemma Dealings.grown (h : r.Dealings q) : r.Grown q := by
  induction h with
  | refl => exact ⟨Nat.le_refl _, Nat.le_refl _, id, id, Nat.le_refl _, rfl⟩
  | tail _ hlast ih =>
    have hgrown := hlast.grown
    exact ⟨ih.launched.trans hgrown.launched, ih.removed.trans hgrown.removed,
      fun h => hgrown.aborted (ih.aborted h), fun h => hgrown.raised (ih.raised h),
      ih.nextId.trans hgrown.nextId, hgrown.template.trans ih.template⟩

/-- As long as nobody is removed or aborted, nobody drains and nobody is asked to stop. -/
structure Sane (r : Run) : Prop where
  count : r.pool.count = r.pool.live.length
  draining : r.removed = 0 → r.pool.draining = []
  unasked : r.removed = 0 → r.pool.Unasked

lemma Dealing.sane (h : Dealing r q) (hr : r.Sane) : q.Sane := by
  cases h with
  | alike h =>
    obtain ⟨-, shared, rfl⟩ := h
    exact ⟨hr.count, hr.draining, hr.unasked⟩
  | arrives hticket mode =>
    exact ⟨rfl, hr.draining, fun h => (hr.unasked h).register _ _⟩
  | leaves id =>
    refine ⟨?_, fun h => ?_, fun h => (hr.unasked h).deregister _⟩
    · rw [Pool.deregister]
      split
      · rfl
      · exact hr.count
    · rw [Pool.deregister]
      split
      · exact hr.draining h
      · simp [hr.draining h]
  | launches amount => exact ⟨hr.count, hr.draining, hr.unasked⟩
  | counts amount => exact ⟨hr.count, hr.draining, hr.unasked⟩
  | removes amount mode =>
    refine ⟨?_, fun h => ?_, fun h => ?_⟩
    · simp [Pool.update, Pool.take, Pool.publish]
    · exact (Pool.take_nobody (Nat.add_eq_zero_iff.1 h).2).1.trans
        (hr.draining (Nat.add_eq_zero_iff.1 h).1)
    · intro haborted m hm
      refine hr.unasked (Nat.add_eq_zero_iff.1 h).1 haborted m ?_
      exact (Pool.take_nobody (Nat.add_eq_zero_iff.1 h).2).2.mem_iff.1 hm
  | aborts =>
    refine ⟨?_, fun h => ?_, fun _ => r.pool.unasked_abortAll⟩
    · simp [Pool.abortAll, hr.count]
    · simp [Pool.abortAll, hr.draining h]
  | letsGo released dropped => exact ⟨hr.count, hr.draining, hr.unasked⟩

lemma sane_new (template : Nat) (context : RunContext) : Sane { template, context } where
  count := rfl
  draining _ := rfl
  unasked _ _ := by simp [Pool.members]

lemma Dealings.sane (h : r.Dealings q) (hr : r.Sane) : q.Sane := by
  induction h with
  | refl => exact hr
  | tail _ hlast ih => exact hlast.sane ih

/-- As long as nobody is launched and nobody is to arrive, nobody new is live. -/
lemma Dealing.closed (h : Dealing r q) (hlaunched : q.launched = r.launched)
    (harriving : r.arriving = []) : q.arriving = [] ∧ q.pool.liveIds ⊆ r.pool.liveIds := by
  cases h with
  | alike h =>
    obtain ⟨-, shared, rfl⟩ := h
    exact ⟨harriving, List.Subset.refl _⟩
  | arrives hticket mode => simp [harriving] at hticket
  | leaves id =>
    refine ⟨harriving, ?_⟩
    rw [Pool.liveIds_deregister]
    exact List.filter_subset_self _
  | launches amount =>
    obtain rfl : amount = 0 := by simpa [launch] using hlaunched
    exact ⟨by simp [launch, harriving], List.Subset.refl _⟩
  | counts amount => exact ⟨harriving, List.Subset.refl _⟩
  | removes amount mode =>
    refine ⟨harriving, ?_⟩
    rw [Pool.liveIds_update (f := .requestStop) fun _ => rfl]
    exact fun id hid => (r.pool.liveIds_take amount mode).subset (List.mem_append_right _ hid)
  | aborts => exact ⟨harriving, by simp⟩
  | letsGo released dropped => exact ⟨harriving, List.Subset.refl _⟩

lemma Dealings.closed (h : r.Dealings q) (hlaunched : q.launched = r.launched)
    (harriving : r.arriving = []) : q.arriving = [] ∧ q.pool.liveIds ⊆ r.pool.liveIds := by
  induction h with
  | refl => exact ⟨harriving, List.Subset.refl _⟩
  | tail hdealings hlast ih =>
    have hle := Dealings.grown hdealings
    have hlast' := hlast.grown
    have hmid := Nat.le_antisymm (hlast'.launched.trans_eq hlaunched) hle.launched
    obtain ⟨harriving', hlive⟩ := ih hmid
    obtain ⟨harriving'', hlive'⟩ := hlast.closed (hlaunched.trans hmid.symm) harriving'
    exact ⟨harriving'', List.Subset.trans hlive' hlive⟩

/-- Nobody is removed or aborted, and the signal is not raised. -/
structure Untouched (r : Run) : Prop where
  removed : r.removed = 0
  unaborted : r.pool.aborted = false
  unraised : r.isRaised = false

/-- A run that is untouched has been so all the time. -/
lemma Grown.untouched (h : r.Grown q) (hq : q.Untouched) : r.Untouched where
  removed := Nat.eq_zero_of_le_zero (h.removed.trans_eq hq.removed)
  unaborted := by
    by_contra hnot
    exact absurd (h.aborted (by simpa using hnot)) (by simp [hq.unaborted])
  unraised := by
    by_contra hnot
    exact absurd (h.raised (by simpa using hnot)) (by simp [hq.unraised])

end Run

lemma World.Reachable.sane {w : World σ} (hw : w.Reachable) {i : Nat} {r : Run}
    (hr : w.run? i = some r) : r.Sane := by
  obtain ⟨template, context, hdealings⟩ := hw.exists_dealings hr
  exact hdealings.sane (Run.sane_new template context)

end LoadTest
