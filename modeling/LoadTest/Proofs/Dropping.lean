import LoadTest.Proofs.Dealings

/-!
# Dropping a run

A run is dropped once nobody holds it any more, and nothing watches its stop signal from then on.
If anyone is within reach at that moment, everyone is aborted, and so is whoever arrives later. If
nobody is, then nobody is aborted: users that have been launched and are still to arrive, because
the creation that launched them has been given up, go on as long as they like.
-/

namespace LoadTest

variable {σ : Type}

/-! ### What is not dropped -/

lemma Errand.dropped_perform (now : Millis) (r : Run) (e : Errand) :
    (e.perform now r).run.dropped = r.dropped := by
  cases e.performed now r with
  | create hraised hrun => exact (congrArg Run.dropped hrun).trans rfl
  | count hrun => exact (congrArg Run.dropped hrun).trans rfl
  | remove hraised hrun => exact (congrArg Run.dropped hrun).trans rfl
  | abort hrun => exact (congrArg Run.dropped hrun).trans rfl
  | raise hrun => exact (congrArg Run.dropped hrun).trans rfl
  | idle hcount hrun => exact (congrArg Run.dropped hrun).trans rfl

lemma Operation.dropped_step (o : Operation) (now : Millis) (r : Run) :
    (o.step now r).1.dropped = r.dropped := by
  have hstepped := o.stepped now r
  generalize o.step now r = next at hstepped ⊢
  cases hstepped with
  | givesUp hhold => rfl
  | ends hhold hagenda => rfl
  | performs hhold hagenda hgoes hends => exact Errand.dropped_perform now r _

lemma Run.Alike.dropped {r q : Run} (h : r.Alike q) : q.dropped = r.dropped := by
  obtain ⟨-, shared, rfl⟩ := h
  rfl

/-! ### Pools in which nobody has been aborted -/

namespace Pool

/-- Neither the pool nor any of its members has been aborted. -/
structure Spared (p : Pool) : Prop where
  pool : p.aborted = false
  member : ∀ m ∈ p.members, m.aborted = false

variable {p : Pool}

lemma spared_of_members_eq_nil (hp : p.aborted = false) (hmembers : p.members = []) : p.Spared where
  pool := hp
  member m hm := by
    rw [hmembers] at hm
    cases hm

lemma Spared.register (h : p.Spared) {m : Member} (hm : m.aborted = false) :
    (p.register m).Spared where
  pool := h.pool
  member n hn := by
    obtain hlive | hdraining := mem_members.1 hn
    · have hlive : n ∈ insertMember (if p.aborted then m.abort else m) p.live := hlive
      rw [h.pool, if_neg Bool.false_ne_true] at hlive
      obtain rfl | hlive := mem_insertMember.1 hlive
      · exact hm
      · exact h.member n (mem_members.2 (.inl hlive))
    · exact h.member n (mem_members.2 (.inr hdraining))

lemma Spared.deregister (h : p.Spared) (id : UserId) : (p.deregister id).Spared := by
  rw [Pool.deregister]
  split_ifs
  · refine ⟨h.pool, fun m hm => h.member m ?_⟩
    exact mem_members.2 ((mem_members.1 hm).imp_left fun hm => (List.mem_filter.1 hm).1)
  · refine ⟨h.pool, fun m hm => h.member m ?_⟩
    exact mem_members.2 ((mem_members.1 hm).imp_right fun hm => (List.mem_filter.1 hm).1)

end Pool

namespace World

variable {w v : World σ} {i : Nat} {r q : Run}

/-! ### The moment of dropping -/

lemma Reachable.goes (hw : w.Reachable) (h : Goes w v) : v.Reachable := by
  obtain hstep | hcall := h
  · exact .step hw hstep
  · exact .call hw hcall

lemma isHeld_eq_false : w.isHeld i = false ↔ ∀ o, .operation o ∈ w.actors → o.run ≠ i := by
  rw [isHeld, List.any_eq_false]
  constructor
  · intro h o ho hrun
    exact h _ ho (by simpa using hrun)
  · intro h a ha
    cases a with
    | operation o => simpa using h o ha
    | _ => simp

/-- A world lets go of a run: nobody holds it, and if anyone is within reach everyone is aborted. -/
structure LetsGo (w : World σ) (i : Nat) (q : Run) : Prop where
  run : w.run? i = some q
  unheld : w.isHeld i = false
  reached : q.pool.members ≠ [] → q.pool.aborted = true

lemma letsGo_of_dropIfFree (hr : w.run? i = some r) (hkept : r.dropped = false)
    (hcount : r.pool.count = r.pool.live.length) (hq : (w.dropIfFree i).run? i = some q)
    (hgone : q.dropped = true) : (w.dropIfFree i).LetsGo i q := by
  have hactors : (w.dropIfFree i).actors = w.actors := (w.keeps_dropIfFree i).actors
  refine ⟨hq, ?_, ?_⟩
  · rw [isHeld, hactors]
    rw [dropIfFree, hr] at hq
    simp only at hq
    split_ifs at hq with hfree
    · simp only [Bool.and_eq_true, Bool.not_eq_true'] at hfree
      exact hfree.2
    · simp only [Bool.and_eq_true, Bool.not_eq_true'] at hfree
      exact hfree.2
    · cases hr.symm.trans hq
      rw [hkept] at hgone
      cases hgone
  · rw [dropIfFree, hr] at hq
    simp only at hq
    split_ifs at hq with hfree hremain
    · cases (run?_setRun_self hr).symm.trans hq
      exact fun _ => rfl
    · cases (run?_setRun_self hr).symm.trans hq
      intro hmembers
      refine absurd ?_ hremain
      rw [hcount, ← List.length_append]
      exact List.length_pos_iff.2 hmembers
    · cases hr.symm.trans hq
      rw [hkept] at hgone
      cases hgone

lemma Reachable.letsGo_turn (hw : w.Reachable) {a : Actor σ} {others : List (Actor σ)}
    (hactors : w.actors.Perm (a :: others)) (hr : w.run? i = some r) (hkept : r.dropped = false)
    (hq : (w.turn a others).run? i = some q) (hgone : q.dropped = true) :
    (w.turn a others).LetsGo i q := by
  have ha : a ∈ w.actors := hactors.mem_iff.2 (List.mem_cons_self ..)
  obtain ⟨r', hr'⟩ := hw.staffed.exists_run ha
  obtain ⟨new, q', hturn⟩ := hw.staffed.replaces hactors hr'
  have habsurd : ∀ {p : Run}, (w.turn a others).run? i = some p → p.dropped = false →
      (w.turn a others).LetsGo i q := by
    intro p hp hdropped
    cases hp.symm.trans hq
    rw [hdropped] at hgone
    cases hgone
  by_cases hi : i = a.place
  · subst hi
    cases a with
    | user j u =>
      have hended : u.isEnded = false := (hw.staffed.placed _ ha).1
      cases hlaunched : u.isLaunched with
      | true => exact habsurd (turn_launched others hr hlaunched).1 hkept
      | false =>
        cases hends : (w.stepUser r u).isEnded with
        | true =>
          obtain ⟨p, hp, halike, -⟩ := turn_ends others hr hlaunched hended hends
          exact habsurd hp (halike.dropped.trans hkept)
        | false =>
          obtain ⟨p, hp, halike, -⟩ := turn_goesOn others hr hlaunched hended hends
          exact habsurd hp (halike.dropped.trans hkept)
    | operation o =>
      have hr : w.run? o.run = some r := hr
      have hdropped : (o.step w.now r).1.dropped = false :=
        (Operation.dropped_step o w.now r).trans hkept
      cases hended : (o.step w.now r).2.1.isEnded with
      | true =>
        have hrun : ((o.step w.now r).2.2.foldl (applyAct o.run)
            (w.setRun o.run (o.step w.now r).1)).run? o.run = some (o.step w.now r).1 := by
          rw [run?_foldl_applyAct, run?_setRun_self hr]
        have hsane := (Run.dealings_step o w.now r).sane (hw.sane hr)
        have hq' : (w.turn (.operation o) others).run? o.run = some q := hq
        simp only [turn, hr, hended, if_true] at hq' ⊢
        exact letsGo_of_dropIfFree hrun hdropped hsane.count hq' hgone
      | false => exact habsurd (turn_operation_goesOn others hr hended).1 hdropped
    | watch j tick =>
      have hr : w.run? j = some r := hr
      cases hraised : r.isRaised with
      | true => exact habsurd (turn_watch_raised tick others hr hkept hraised).1 hkept
      | false => exact habsurd (turn_watch_waits tick others hr hkept hraised).1 hkept
    | alarm j due => exact habsurd (turn_alarm due others hr).1 hkept
  · exact habsurd ((hturn.apart.others i hi).trans hr) hkept

lemma Reachable.letsGo_call (hw : w.Reachable) (hcall : Call w v) (hr : w.run? i = some r)
    (hkept : r.dropped = false) (hq : v.run? i = some q) (hgone : q.dropped = true) :
    v.LetsGo i q := by
  have habsurd : ∀ {p : Run}, v.run? i = some p → p.dropped = false → v.LetsGo i q := by
    intro p hp hdropped
    cases hp.symm.trans hq
    rw [hdropped] at hgone
    cases hgone
  cases hcall with
  | cast b =>
    refine habsurd (p := r) ?_ hkept
    rw [World.cast]
    split <;> exact hr
  | openRun context htemplate =>
    refine habsurd (p := r) ?_ hkept
    rw [run?_openRun, if_neg, hr]
    rintro rfl
    exact absurd (w.run?_length.symm.trans hr) (by simp)
  | submit horizon hrun hagenda => exact habsurd hr hkept
  | raise j =>
    by_cases hj : i = j
    · subst hj
      rw [raise_eq hr] at habsurd ⊢
      exact habsurd (run?_setRun_self hr) hkept
    · exact habsurd (((w.apart_raise j).others i hj).trans hr) hkept
  | raiseAt due hrun => exact habsurd hr hkept
  | abort j =>
    by_cases hj : i = j
    · subst hj
      rw [abort_eq hr] at habsurd ⊢
      exact habsurd (run?_setRun_self hr) hkept
    · exact habsurd (((w.apart_abort j).others i hj).trans hr) hkept
  | release j =>
    by_cases hj : i = j
    · subst hj
      rw [World.release, hr] at hq ⊢
      have hrun : (w.setRun i { r with released := true }).run? i =
          some { r with released := true } := run?_setRun_self hr
      exact letsGo_of_dropIfFree hrun hkept (hw.sane hr).count hq hgone
    · exact habsurd (((w.apart_release j).others i hj).trans hr) hkept
  | log m => exact habsurd hr hkept

/-- However a run comes to be dropped, nobody holds it, and whoever is within reach is aborted. -/
lemma Reachable.letsGo (hw : w.Reachable) (h : Goes w v) (hr : w.run? i = some r)
    (hkept : r.dropped = false) (hq : v.run? i = some q) (hgone : q.dropped = true) :
    v.LetsGo i q := by
  obtain hstep | hcall := h
  · cases hstep with
    | turn hactors hready => exact hw.letsGo_turn (hactors ▸ List.perm_middle) hr hkept hq hgone
    | wait hnow =>
      cases hr.symm.trans hq
      rw [hkept] at hgone
      cases hgone
  · exact hw.letsGo_call hcall hr hkept hq hgone

/-! ### Users that are left behind -/

/-- Something happens, but nothing that is asked from outside begins an operation on a run or
changes its pool. Its stop signal may be raised. -/
inductive Unattended (i : Nat) : World σ → World σ → Prop
  | step {w v : World σ} (hstep : Step w v) : Unattended i w v
  | call {w v : World σ} (hcall : Call w v) (hheld : w.isHeld i = false → v.isHeld i = false)
      (hpool : ∀ r q, w.run? i = some r → v.run? i = some q → q.pool = r.pool) : Unattended i w v

lemma Unattended.goes (h : Unattended i w v) : Goes w v := by
  cases h with
  | step hstep => exact .inl hstep
  | call hcall => exact .inr hcall

/-- A run is gone, but nobody in its pool has been aborted, and nobody will be. -/
structure LeavesBehind (w : World σ) (i : Nat) (r : Run) : Prop where
  run : w.run? i = some r
  dropped : r.dropped = true
  unheld : w.isHeld i = false
  spared : r.pool.Spared

/-- Whoever has a turn is not an operation on a run that nobody holds, and leaves none. -/
lemma Reachable.unheld_turn (hw : w.Reachable) {a : Actor σ} {others : List (Actor σ)}
    (hactors : w.actors.Perm (a :: others)) (hheld : w.isHeld i = false) :
    (w.turn a others).isHeld i = false := by
  rw [isHeld_eq_false] at hheld ⊢
  have ha : a ∈ w.actors := hactors.mem_iff.2 (List.mem_cons_self ..)
  have hothers : ∀ o, .operation o ∈ others → o.run ≠ i := fun o ho =>
    hheld o (hactors.mem_iff.2 (List.mem_cons_of_mem _ ho))
  have hnew : ∀ users : List (Actor σ), (∀ b ∈ users, w.Launches a b) →
      ∀ o, .operation o ∉ users := fun users husers o hmem => nomatch husers _ hmem
  have hsucceeds : ∀ b, w.Succeeds a b → ∀ o, b = .operation o → o.run ≠ i := by
    rintro b hb o rfl
    cases hb with
    | @operation o' r hr hgoes =>
      rw [(o'.later_step w.now r).2.2]
      exact hheld o' ha
  intro o ho
  cases hw.staffed.lineup ha others with
  | leaves users husers hafter =>
    rw [hafter] at ho
    exact hothers o ((List.mem_append.1 ho).resolve_right (hnew users husers o))
  | stays users husers hb hgoes hready hafter =>
    rw [hafter] at ho
    obtain ho | ho := List.mem_cons.1 ho
    · exact hsucceeds _ hb o ho.symm
    · exact hothers o ((List.mem_append.1 ho).resolve_right (hnew users husers o))
  | dies hb hsuspended hr haborted hafter =>
    rw [hafter] at ho
    obtain ho | ho := List.mem_cons.1 ho
    · cases ho
    · exact hothers o ho
  | rests users husers hb hmidway hafter =>
    rw [hafter] at ho
    obtain ho | ho := List.mem_append.1 ho
    · exact hothers o ((List.mem_append.1 ho).resolve_right (hnew users husers o))
    · exact hsucceeds _ hb o (List.mem_singleton.1 ho).symm

namespace LeavesBehind

/-- A turn of whoever is not an operation on the run leaves the pool unaborted. -/
lemma turn (h : w.LeavesBehind i r) (hw : w.Reachable) {a : Actor σ} {others : List (Actor σ)}
    (hactors : w.actors.Perm (a :: others)) : ∃ q, (w.turn a others).LeavesBehind i q := by
  have hunheld := hw.unheld_turn hactors h.unheld
  have ha : a ∈ w.actors := hactors.mem_iff.2 (List.mem_cons_self ..)
  obtain ⟨r', hr'⟩ := hw.staffed.exists_run ha
  obtain ⟨new, q', hturn⟩ := hw.staffed.replaces hactors hr'
  by_cases hi : i = a.place
  · subst hi
    have hr := h.run
    cases a with
    | user j u =>
      have hr : w.run? j = some r := hr
      have hended : u.isEnded = false := (hw.staffed.placed _ ha).1
      cases hlaunched : u.isLaunched with
      | true =>
        have hissued : r.pool.issueId.2.Spared := ⟨h.spared.pool, h.spared.member⟩
        exact ⟨_, (turn_launched others hr hlaunched).1, h.dropped, hunheld, hissued.register rfl⟩
      | false =>
        cases hends : (w.stepUser r u).isEnded with
        | true =>
          obtain ⟨p, hp, halike, -⟩ := turn_ends others hr hlaunched hended hends
          exact ⟨_, hp, halike.dropped.trans h.dropped, hunheld, h.spared.deregister u.id⟩
        | false =>
          obtain ⟨p, hp, halike, -⟩ := turn_goesOn others hr hlaunched hended hends
          exact ⟨_, hp, halike.dropped.trans h.dropped, hunheld, halike.pool ▸ h.spared⟩
    | operation o => exact absurd rfl (isHeld_eq_false.1 h.unheld o ha)
    | watch j tick =>
      exact ⟨r, (turn_watch_dropped tick others hr h.dropped).1, h.dropped, hunheld, h.spared⟩
    | alarm j due => exact ⟨_, (turn_alarm due others hr).1, h.dropped, hunheld, h.spared⟩
  · exact ⟨r, (hturn.apart.others i hi).trans h.run, h.dropped, hunheld, h.spared⟩

lemma unattended (h : w.LeavesBehind i r) (hw : w.Reachable) (hv : Unattended i w v) :
    ∃ q, v.LeavesBehind i q := by
  cases hv with
  | step hstep =>
    cases hstep with
    | turn hactors hready => exact h.turn hw (hactors ▸ List.perm_middle)
    | wait hnow => exact ⟨r, h.run, h.dropped, h.unheld, h.spared⟩
  | call hcall hheld hpool =>
    obtain ⟨q, hq, -, hremains⟩ := hcall.run h.run
    have heq := hpool r q h.run hq
    exact ⟨q, hq, hremains.dropped h.dropped, hheld h.unheld, heq ▸ h.spared⟩

/-- Nobody that is left behind is ever aborted. -/
lemma unattendeds (h : w.LeavesBehind i r) (hw : w.Reachable)
    (hv : Relation.ReflTransGen (Unattended i) w v) :
    v.Reachable ∧ ∃ q, v.LeavesBehind i q := by
  induction hv with
  | refl => exact ⟨hw, r, h⟩
  | tail _ hlast ih =>
    obtain ⟨hu, q, hq⟩ := ih
    exact ⟨hu.goes hlast.goes, hq.unattended hu hlast⟩

lemma aborted_eq_false (h : w.LeavesBehind i r) (u : User σ) :
    (w.viewOf r u).aborted = false := by
  rw [viewOf]
  simp only
  cases hfind : r.pool.find? u.id with
  | none => rfl
  | some m =>
    rw [Pool.find?_eq_find?_members] at hfind
    exact h.spared.member m (List.mem_of_find?_eq_some hfind)

end LeavesBehind

/-! ### Main results -/

/-- What becomes of the users of a run that is dropped. If anyone is within reach at that moment,
everyone within reach is aborted, and nobody who has been launched gets past a suspension any more.
If nobody is, and the pool has not been aborted before, then the users that are still to arrive are
not aborted, neither as they arrive nor at any later time, even if the stop signal is raised. -/
theorem Reachable.dropping (hw : w.Reachable) (h : Goes w v) (hr : w.run? i = some r)
    (hkept : r.dropped = false) (hq : v.run? i = some q) (hgone : q.dropped = true) :
    (q.pool.members ≠ [] → q.pool.aborted = true) ∧
    (q.pool.aborted = true →
      (∀ m ∈ q.pool.members, m.active = false ∧ m.aborted = true) ∧ v.ClearsOut i) ∧
    (q.pool.aborted = false → q.pool.members = [] ∧
      ∀ x, Relation.ReflTransGen (Unattended i) v x → ∃ p, x.run? i = some p ∧
        p.pool.aborted = false ∧ ∀ u, (x.viewOf p u).aborted = false) := by
  have hv := hw.goes h
  have hlets := hw.letsGo h hr hkept hq hgone
  refine ⟨hlets.reached, fun haborted => ⟨fun m hm => ?_, hv.clearsOut hq haborted⟩,
    fun hunaborted => ?_⟩
  · obtain ⟨haborted, hactive⟩ := (hv.staffed.run i q hq).sound haborted m hm
    exact ⟨hactive, haborted⟩
  · have hmembers : q.pool.members = [] := by
      by_contra hne
      rw [hlets.reached hne] at hunaborted
      cases hunaborted
    have hbehind : v.LeavesBehind i q :=
      ⟨hq, hgone, hlets.unheld, Pool.spared_of_members_eq_nil hunaborted hmembers⟩
    refine ⟨hmembers, fun x hx => ?_⟩
    obtain ⟨-, p, hp⟩ := hbehind.unattendeds hv hx
    exact ⟨p, hp.run, hp.spared.pool, fun u => hp.aborted_eq_false u⟩

/-! A creation of a nap that is given up at once, on a run that nobody else holds. -/

def napAsked : World Unit :=
  let w := (napBase.openRun 0 { runId := "1", watchInterval := 100 }).2
  ((w.submit 0 [.create 1 .looped] (some 0)).2).release 0

/-- The nap has been launched, and the creation is about to be given up. -/
def napForgotten : World Unit := stepUntil (fun _ => false) 0 2 napAsked

/-- The creation has been given up. -/
def napDropped : World Unit := (napForgotten.next? 0).getD napForgotten

/-- How many cycles the users have gone through. -/
def cyclesDone (w : World Unit) : List Nat :=
  w.actors.filterMap fun
    | .user _ u =>
      match u.phase with
      | .calling (.cycle completed _ _ _) _ => some completed.toNat
      | _ => none
    | _ => none

lemma reachable_napForgotten : napForgotten.Reachable := by
  have hbase : napBase.Reachable := .call (.empty rfl rfl) (.cast _)
  have hopened : (napBase.openRun 0 { runId := "1", watchInterval := 100 }).2.Reachable :=
    .call hbase (.openRun _ (by decide +kernel))
  have hsubmitted : ((napBase.openRun 0 { runId := "1", watchInterval := 100 }).2.submit 0
      [.create 1 .looped] (some 0)).2.Reachable :=
    .call hopened (.submit (some 0) (by decide +kernel) (by decide))
  have hasked : napAsked.Reachable := .call hsubmitted (.release 0)
  exact hasked.lapses (hasked.lapses_stepUntil _ _ _)

lemma goes_napDropped : Goes napForgotten napDropped := by
  have hsome : (napForgotten.next? 0).isSome = true := by decide +kernel
  obtain ⟨v, hv⟩ := Option.isSome_iff_exists.1 hsome
  have heq : napDropped = v := by rw [napDropped, hv, Option.getD_some]
  rw [heq]
  cases reachable_napForgotten.staffed.lapse_of_next? hv with
  | acts hacts => exact .inl hacts.step
  | idle hsettled hnow hdue => exact .inl (.wait hnow)
  | call hmidway hcall => exact .inr hcall

/-- The nap is still to arrive when its run is dropped. It is never aborted, and it goes through one
cycle after the other. -/
theorem nap_left_behind :
    (∃ q, napDropped.run? 0 = some q ∧ q.dropped = true ∧ q.arriving = [0] ∧
      ∀ x, Relation.ReflTransGen (Unattended 0) napDropped x → ∃ p, x.run? 0 = some p ∧
        ∀ u, (x.viewOf p u).aborted = false) ∧
      cyclesDone (stepUntil (fun _ => false) 200000 100 napDropped) = [3] := by
  have hbefore : (napForgotten.run? 0).map (fun r => r.dropped) = some false := by decide +kernel
  have hafter : (napDropped.run? 0).map (fun q => (q.dropped, q.arriving, q.pool.aborted)) =
      some (true, [0], false) := by decide +kernel
  obtain ⟨r, hr, hkept⟩ := Option.map_eq_some_iff.1 hbefore
  obtain ⟨q, hq, hfacts⟩ := Option.map_eq_some_iff.1 hafter
  simp only [Prod.mk.injEq] at hfacts
  obtain ⟨hgone, harriving, hunaborted⟩ := hfacts
  obtain ⟨-, -, hbehind⟩ :=
    reachable_napForgotten.dropping goes_napDropped hr hkept hq hgone
  refine ⟨⟨q, hq, hgone, harriving, fun x hx => ?_⟩, by decide +kernel⟩
  obtain ⟨p, hp, -, hspared⟩ := (hbehind hunaborted).2 x hx
  exact ⟨p, hp, hspared⟩

end World

end LoadTest
