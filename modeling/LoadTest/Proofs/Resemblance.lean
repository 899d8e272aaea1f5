import LoadTest.Proofs.Concluding
import LoadTest.Proofs.Outline
import LoadTest.Proofs.Settling

/-!
# Worlds that differ in one instance

Two worlds whose templates differ in one instance resemble each other: they show the same, and
everyone is at the same place in both, apart from the user with that instance. Whatever that user
does in one of the two worlds they go on to do so, and so they do if the same actor takes its turn
in both at the same instant.
-/

namespace LoadTest

variable {σ : Type} {S : Others σ} {j : Nat}

/-! ### Strangers -/

/-- Is the actor the user with the instance of a number? -/
def Actor.owns (j : Nat) : Actor σ → Bool
  | .user _ u => u.hasInstance && u.instanceNumber == j
  | _ => false

/-- Everyone but the user with the instance of a number. -/
def strangers (j : Nat) (as : List (Actor σ)) : List (Actor σ) := as.filter fun a => !a.owns j

/-- The same actor in two worlds whose behaviors differ in the instance of a number. -/
inductive Actor.Alike (j : Nat) (S : Others σ) : Actor σ → Actor σ → Prop
  | user (i : Nat) {u u' : User σ} (hu : u.Alike j S u') : Alike j S (.user i u) (.user i u')
  | operation (o : Operation) : Alike j S (.operation o) (.operation o)
  | watch (i : Nat) (tick : Millis) : Alike j S (.watch i tick) (.watch i tick)
  | alarm (i : Nat) (due : Millis) : Alike j S (.alarm i due) (.alarm i due)

lemma Actor.Alike.not_owns {a a' : Actor σ} (h : a.Alike j S a') :
    a.owns j = false ∧ a'.owns j = false := by
  cases h with
  | @user i u u' hu =>
    have happart : (u.hasInstance && u.instanceNumber == j) = false := by
      by_contra hnot
      obtain ⟨hinstance, hnumber⟩ : u.hasInstance = true ∧ u.instanceNumber = j := by
        simpa using hnot
      exact hu.apart hinstance hnumber
    refine ⟨happart, ?_⟩
    rw [owns, hu.hasInstance, hu.instanceNumber]
    exact happart
  | _ => exact ⟨rfl, rfl⟩

lemma strangers_append (as bs : List (Actor σ)) :
    strangers j (as ++ bs) = strangers j as ++ strangers j bs := List.filter_append ..

lemma strangers_cons {a : Actor σ} (ha : a.owns j = false) (as : List (Actor σ)) :
    strangers j (a :: as) = a :: strangers j as := List.filter_cons_of_pos (by simp [ha])

lemma strangers_of_owns {a : Actor σ} (ha : a.owns j = true) (as : List (Actor σ)) :
    strangers j (a :: as) = strangers j as := List.filter_cons_of_neg (by simp [ha])

lemma strangers_eq_self {as : List (Actor σ)} (h : ∀ a ∈ as, a.owns j = false) :
    strangers j as = as := List.filter_eq_self.2 fun a ha => by simp [h a ha]

/-! ### Confined instances -/

/-- Nobody is asked to stop, unless everyone is aborted. -/
def Pool.Unasked (p : Pool) : Prop :=
  p.aborted = false → ∀ m ∈ p.members, m.active = true ∧ m.aborted = false

/-- A run that is held, and in which nobody is asked to stop. -/
structure Run.Undisturbed (r : Run) : Prop where
  released : r.released = false
  unasked : r.pool.Unasked

/-- No instance of a number raises the stop signal. -/
def Template.NeverRaisesAs (t : Template σ) (j : Nat) : Prop :=
  ∀ u : User σ, u.IsOf t → u.hasInstance = true → u.instanceNumber = j →
    ∀ v, .deed .raise ∉ (u.step v).2

/-- No instance of a number makes transactions. -/
def Template.NeverTransactsAs (t : Template σ) (j : Nat) : Prop :=
  ∀ u : User σ, u.IsOf t → u.hasInstance = true → u.instanceNumber = j →
    ∀ v, ∀ e ∈ (u.step v).2, e.isTransaction = false

lemma Template.NeverRaises.as {t : Template σ} (h : t.NeverRaises) (j : Nat) : t.NeverRaisesAs j :=
  fun u hu _ _ v => h u hu v

lemma Pool.Unasked.register {p : Pool} (h : p.Unasked) (id : UserId) (mode : Mode) :
    (p.issueId.2.register { id, mode }).Unasked := by
  intro haborted m hm
  have haborted' : p.aborted = false := haborted
  have hm' : m ∈ insertMember { id, mode } p.live ++ p.draining := by
    simpa [Pool.register, Pool.issueId, Pool.publish, Pool.members, haborted'] using hm
  rcases List.mem_append.1 hm' with hlive | hdraining
  · rcases mem_insertMember.1 hlive with rfl | hlive
    · exact ⟨rfl, rfl⟩
    · exact h haborted' m (List.mem_append_left _ hlive)
  · exact h haborted' m (List.mem_append_right _ hdraining)

lemma Pool.Unasked.deregister {p : Pool} (h : p.Unasked) (id : UserId) :
    (p.deregister id).Unasked := by
  rw [Pool.deregister]
  split_ifs
  · intro haborted m hm
    refine h haborted m ((List.mem_append.1 hm).elim (fun hm => ?_) (List.mem_append_right _))
    exact List.mem_append_left _ (List.mem_of_mem_filter hm)
  · intro haborted m hm
    refine h haborted m ((List.mem_append.1 hm).elim (List.mem_append_left _) fun hm => ?_)
    exact List.mem_append_right _ (List.mem_of_mem_filter hm)

lemma Pool.unasked_abortAll (p : Pool) : p.abortAll.2.Unasked := fun h => nomatch h

lemma Run.Undisturbed.alike {r q : Run} (h : r.Undisturbed) (hq : r.Alike q) : q.Undisturbed := by
  obtain ⟨-, shared, rfl⟩ := hq
  exact ⟨h.released, h.unasked⟩

lemma Run.Undisturbed.freed {r q : Run} (h : r.Undisturbed) (hq : r.Freed q) : q.Undisturbed := by
  rcases hq with rfl | ⟨pool, rfl | rfl, rfl⟩
  · exact h
  · exact ⟨h.released, h.unasked⟩
  · exact ⟨h.released, r.pool.unasked_abortAll⟩

namespace World

variable {w w' v v' : World σ} {i : Nat} {r r' q : Run}

/-- An instance of a number can do nothing to others: nobody looks at who is in a pool, it never
raises the stop signal, and it makes no transactions that others heed. -/
structure Confines (S : Others σ) (j : Nat) (w : World σ) : Prop where
  reachable : w.Reachable
  undisturbed : ∀ i r, w.run? i = some r → r.Undisturbed
  blind : ∀ o, .operation o ∈ w.actors → o.IsBlind
  quiet : ∀ k t, w.template? k = some t → t.NeverRaisesAs j
  sparing : S.heedful = true → ∀ k t, w.template? k = some t → t.NeverTransactsAs j

namespace Confines

/-- The run of whoever takes a turn stays undisturbed. -/
lemma undisturbed_turn (h : w.Confines S j) {a : Actor σ} (ha : a ∈ w.actors)
    (others : List (Actor σ)) (hr : w.run? a.place = some r)
    (hq : (w.turn a others).run? a.place = some q) : q.Undisturbed := by
  have hundisturbed := h.undisturbed _ r hr
  cases a with
  | user i u =>
    have hended := (h.reachable.staffed.placed _ ha).1
    cases hlaunched : u.isLaunched with
    | true =>
      obtain ⟨hrun, -⟩ := turn_launched others hr hlaunched
      cases hrun.symm.trans hq
      exact ⟨hundisturbed.released, hundisturbed.unasked.register _ _⟩
    | false =>
      cases hends : (w.stepUser r u).isEnded with
      | true =>
        obtain ⟨q', hrun, halike, -⟩ := turn_ends others hr hlaunched hended hends
        cases hrun.symm.trans hq
        exact ⟨(hundisturbed.alike halike).released, hundisturbed.unasked.deregister _⟩
      | false =>
        obtain ⟨q', hrun, halike, -⟩ := turn_goesOn others hr hlaunched hended hends
        cases hrun.symm.trans hq
        exact hundisturbed.alike halike
  | operation o =>
    obtain ⟨-, hpool, hreleased⟩ := (Operation.step_of_isBlind (h.blind o ha) w.now r)
    have hnext : (o.step w.now r).1.Undisturbed :=
      ⟨hreleased.trans hundisturbed.released, by rw [hpool]; exact hundisturbed.unasked⟩
    cases hends : (o.step w.now r).2.1.isEnded with
    | true =>
      obtain ⟨q', hrun, hfreed, -⟩ := turn_operation_ends others hr hends
      cases hrun.symm.trans hq
      exact hnext.freed hfreed
    | false =>
      obtain ⟨hrun, -⟩ := turn_operation_goesOn others hr hends
      cases hrun.symm.trans hq
      exact hnext
  | watch i tick =>
    cases hdropped : r.dropped with
    | true =>
      cases (turn_watch_dropped tick others hr hdropped).1.symm.trans hq
      exact hundisturbed
    | false =>
      cases hraised : r.isRaised with
      | true =>
        cases (turn_watch_raised tick others hr hdropped hraised).1.symm.trans hq
        exact ⟨hundisturbed.released, r.pool.unasked_abortAll⟩
      | false =>
        cases (turn_watch_waits tick others hr hdropped hraised).1.symm.trans hq
        exact hundisturbed
  | alarm i due =>
    cases (turn_alarm due others hr).1.symm.trans hq
    exact hundisturbed.alike (.raise r)

theorem step (h : w.Confines S j) (hstep : Step w v) : v.Confines S j where
  reachable := .step h.reachable hstep
  undisturbed k q hq := by
    cases hstep with
    | wait hnow => exact h.undisturbed k q hq
    | @turn a before after hactors hready =>
      have hperm : w.actors.Perm (a :: (before ++ after)) := hactors ▸ List.perm_middle
      have ha : a ∈ w.actors := hperm.mem_iff.2 (List.mem_cons_self ..)
      obtain ⟨r, hr⟩ := h.reachable.staffed.exists_run ha
      by_cases hk : k = a.place
      · exact h.undisturbed_turn ha _ hr (hk ▸ hq)
      · obtain ⟨new, q', hturn⟩ := h.reachable.staffed.replaces hperm hr
        exact h.undisturbed k q (hturn.apart.others k hk ▸ hq)
  blind o ho := by
    cases hstep.operates with
    | rests hold houtcomes => exact h.blind o (hold o ho)
    | goesOn ho' hr hready hended hold houtcomes =>
      rcases hold o ho with ho | rfl
      · exact h.blind o ho
      · exact (Operation.step_of_isBlind (h.blind _ ho') _ _).1
    | ends ho' hr hready hended hold houtcomes => exact h.blind o (hold o ho)
  quiet k t ht := by
    cases hstep with
    | wait hnow => exact h.quiet k t ht
    | turn hactors hready =>
      rw [h.reachable.staffed.template_turn (hactors ▸ List.perm_middle)] at ht
      exact h.quiet k t ht
  sparing hheedful k t ht := by
    cases hstep with
    | wait hnow => exact h.sparing hheedful k t ht
    | turn hactors hready =>
      rw [h.reachable.staffed.template_turn (hactors ▸ List.perm_middle)] at ht
      exact h.sparing hheedful k t ht

end Confines

/-! ### Turns of users -/

lemma outline_turn_user {u : User σ} (others : List (Actor σ)) (hr : w.run? i = some r) :
    (w.turn (.user i u) others).outline S.heedful j =
      (u.step (w.viewOf r u)).2.foldl (Outline.effect S.heedful i j w.now (w.stepUser r u))
        (w.outline S.heedful j) := by
  rw [stepUser, ← outline_foldl_applyEffect]
  simp only [turn, hr]
  split_ifs <;> rfl

/-- The pool of its run knows a user. -/
lemma Staffed.exists_member (hw : w.Staffed) (hr : w.run? i = some r) {u : User σ}
    (hu : .user i u ∈ w.actors) (henrolled : u.isEnrolled = true) :
    ∃ m ∈ r.pool.members, r.pool.find? u.id = some m := by
  have hid : u.id ∈ r.pool.ids := by
    refine (hw.run i r hr).enrolled.mem_iff.1 (List.mem_filterMap.2 ⟨_, hu, ?_⟩)
    exact if_pos ⟨rfl, henrolled⟩
  rw [← Pool.map_id_members] at hid
  obtain ⟨m, hm, hmid⟩ := List.mem_map.1 hid
  rw [Pool.find?_eq_find?_members]
  cases hfind : r.pool.members.find? (·.id == u.id) with
  | none => exact absurd hmid (by simpa using List.find?_eq_none.1 hfind m hm)
  | some m' => exact ⟨m', List.mem_of_find?_eq_some hfind, rfl⟩

/-- A user in the pool has been aborted if everyone has. -/
lemma Staffed.isAborted_eq (hw : w.Staffed) (hr : w.run? i = some r) {u : User σ}
    (hu : .user i u ∈ w.actors) (henrolled : u.isEnrolled = true) :
    isAborted r u = r.pool.aborted := by
  obtain ⟨m, hm, hfind⟩ := hw.exists_member hr hu henrolled
  rw [isAborted, hfind]
  cases haborted : r.pool.aborted with
  | false => rfl
  | true => simp [((hw.run i r hr).sound haborted m hm).1]

/-- What a user in the pool sees, and may heed, shows in the outline. -/
lemma Confines.shown_viewOf (h : w.Confines S j) (hr : w.run? i = some r) {u : User σ}
    (hu : .user i u ∈ w.actors) (henrolled : u.isEnrolled = true) :
    (w.viewOf r u).shown S.heedful =
      (w.outline S.heedful j).view w.now (r.outline S.heedful) := by
  obtain ⟨m, hm, hfind⟩ := h.reachable.staffed.exists_member hr hu henrolled
  obtain ⟨hactive, haborted⟩ : m.active = !r.pool.aborted ∧ m.aborted = r.pool.aborted := by
    cases hall : r.pool.aborted with
    | false => exact (h.undisturbed i r hr).unasked hall m hm
    | true => exact ((h.reachable.staffed.run i r hr).sound hall m hm).symm
  simp only [viewOf, View.shown, hfind, Outline.view, Option.all_some, Option.any_some, hactive,
    haborted, World.outline, List.getElem?_map]
  rfl

/-- A user stays in front, unless it has ended, or is suspended in a pool that has not been aborted.
-/
lemma Reachable.actors_turn_user (hw : w.Reachable) {u : User σ} {others : List (Actor σ)}
    (hactors : w.actors.Perm (.user i u :: others)) (hr : w.run? i = some r) :
    ∃ q, (w.turn (.user i u) others).run? i = some q ∧ (w.turn (.user i u) others).actors =
      if (w.stepUser r u).isEnded then others
      else if (w.stepUser r u).isSuspended && !q.pool.aborted then
        others ++ [.user i (w.stepUser r u)]
      else .user i (w.stepUser r u) :: others := by
  have hmem : .user i u ∈ w.actors := hactors.mem_iff.2 (List.mem_cons_self ..)
  have hended : u.isEnded = false := (hw.staffed.placed _ hmem).1
  cases hlaunched : u.isLaunched with
  | true =>
    obtain ⟨hrun, hafter⟩ := turn_launched others hr hlaunched
    obtain ⟨hstep, -⟩ :=
      User.step_of_launched (v := w.viewOf r u) (User.phase_of_isLaunched hlaunched)
    refine ⟨_, hrun, hafter.trans ?_⟩
    rw [stepUser, hstep]
    rfl
  | false =>
    cases hends : (w.stepUser r u).isEnded with
    | true =>
      obtain ⟨q, hrun, -, -, hafter⟩ := turn_ends others hr hlaunched hended hends
      exact ⟨_, hrun, hafter⟩
    | false =>
      obtain ⟨q, hrun, -, -, hafter⟩ := turn_goesOn others hr hlaunched hended hends
      refine ⟨q, hrun, hafter.trans ?_⟩
      cases hsuspended : (w.stepUser r u).isSuspended with
      | false => rfl
      | true =>
        have hmem : .user i (w.stepUser r u) ∈ (w.turn (.user i u) others).actors := by
          rw [hafter]
          split_ifs <;> simp
        rw [(hw.staffed.turn hactors).isAborted_eq hrun hmem (isEnrolled_of_isSuspended hsuspended)]
        rfl

/-- Whoever comes to have the instance of a number, or ends, is no stranger. -/
lemma Reachable.strangers_turn_user (hw : w.Reachable) {u : User σ} {others : List (Actor σ)}
    (hactors : w.actors.Perm (.user i u :: others)) (hr : w.run? i = some r)
    (howns : (w.stepUser r u).isEnded = false → Actor.owns j (.user i (w.stepUser r u)) = true) :
    strangers j (w.turn (.user i u) others).actors = strangers j others := by
  obtain ⟨q, -, hafter⟩ := hw.actors_turn_user hactors hr
  rw [hafter]
  cases hends : (w.stepUser r u).isEnded with
  | true => rfl
  | false =>
    rw [if_neg Bool.false_ne_true]
    split_ifs
    · rw [strangers_append, strangers_of_owns (howns hends)]
      exact List.append_nil _
    · exact strangers_of_owns (howns hends) _

/-- The turn of the user with the instance of a number does not show. -/
theorem Confines.turn_owner (h : w.Confines S j) {u : User σ} {others : List (Actor σ)}
    (hactors : w.actors.Perm (.user i u :: others)) (howns : Actor.owns j (.user i u) = true) :
    (w.turn (.user i u) others).outline S.heedful j = w.outline S.heedful j ∧
      strangers j (w.turn (.user i u) others).actors = strangers j others := by
  have hmem : .user i u ∈ w.actors := hactors.mem_iff.2 (List.mem_cons_self ..)
  obtain ⟨hinstance, hnumber⟩ : u.hasInstance = true ∧ u.instanceNumber = j := by
    simpa [Actor.owns] using howns
  obtain ⟨t, ⟨r, hr, ht⟩, hof⟩ := h.reachable.isOf hmem
  obtain ⟨hsame, hkeeps⟩ := User.hasInstance_step hinstance (w.viewOf r u)
  constructor
  · have hquiet := h.quiet _ t ht u hof hinstance hnumber (w.viewOf r u)
    have hnumber' : (w.stepUser r u).instanceNumber = j := hsame.trans hnumber
    have hsparing (hheedful : S.heedful = true) :=
      h.sparing hheedful _ t ht u hof hinstance hnumber (w.viewOf r u)
    rw [outline_turn_user others hr]
    exact Outline.foldl_effect_private hnumber' (User.private_step hinstance hquiet hsparing) _
  · refine h.reachable.strangers_turn_user hactors hr fun hended => ?_
    rw [Actor.owns, stepUser, hkeeps hended, hsame, hnumber]
    exact beq_self_eq_true j

/-! ### Turns of others -/

lemma outline_foldl_applyAct (i : Nat) (acts : List Act) (w : World σ) :
    (acts.foldl (applyAct i) w).outline S.heedful j = w.outline S.heedful j := by
  induction acts generalizing w with
  | nil => rfl
  | cons act acts ih =>
    rw [List.foldl_cons, ih]
    cases act with
    | publish => exact w.outline_publish i
    | _ => rfl

lemma dropIfFree_of_held (hr : w.run? i = some r) (hreleased : r.released = false) :
    w.dropIfFree i = w := by
  simp only [dropIfFree, hr, hreleased, Bool.false_and, if_neg Bool.false_ne_true]

lemma outline_turn_operation {o : Operation} (others : List (Actor σ)) (hr : w.run? o.run = some r)
    (hreleased : (o.step w.now r).1.released = false) :
    (w.turn (.operation o) others).outline S.heedful j =
      if (o.step w.now r).2.1.isEnded then
        ((w.outline S.heedful j).setRun o.run ((o.step w.now r).1.outline S.heedful)).conclude
          (o.step w.now r).2.1.id ((o.step w.now r).2.1.outcome.outline S.heedful)
      else (w.outline S.heedful j).setRun o.run ((o.step w.now r).1.outline S.heedful) := by
  have hacts := outline_foldl_applyAct (S := S) (j := j) o.run (o.step w.now r).2.2
    (w.setRun o.run (o.step w.now r).1)
  rw [outline_setRun] at hacts
  have hrun : ((o.step w.now r).2.2.foldl (applyAct o.run)
      (w.setRun o.run (o.step w.now r).1)).run? o.run = some (o.step w.now r).1 := by
    rw [run?_foldl_applyAct, run?_setRun_self hr]
  simp only [turn, hr]
  generalize (o.step w.now r).2.2.foldl (applyAct o.run) (w.setRun o.run (o.step w.now r).1) = x
    at hacts hrun
  split_ifs
  · rw [dropIfFree_of_held ?_ hreleased, ← hacts]
    · rfl
    · exact hrun
  · exact hacts
  · exact hacts

/-- The users that some acts launch are told by their tickets and lifecycles. -/
lemma newcomers_eq {t : Template σ} (ht : w.template? r.template = some t) (acts : List Act) :
    w.newcomers i r acts = (launches acts).map fun l =>
      .user i { template := t, lifecycle := l.2, ticket := l.1 } := by
  obtain ⟨c, hc, rfl⟩ := Option.map_eq_some_iff.1 ht
  induction acts with
  | nil => rfl
  | cons act acts ih =>
    have hcons : w.newcomers i r (act :: acts) = w.launched i r act ++ w.newcomers i r acts :=
      List.flatMap_cons
    rw [hcons, ih]
    cases act <;> simp [launched, hc, launches, Act.launch?, List.filterMap_cons]

/-! ### Twins -/

/-- Two worlds show the same, and everyone but the user with the instance of a number is at the same
place in both. -/
structure Resembles (j : Nat) (S : Others σ) (w w' : World σ) : Prop where
  outline : w'.outline S.heedful j = w.outline S.heedful j
  strangers : List.Forall₂ (Actor.Alike j S) (strangers j w.actors) (strangers j w'.actors)

/-- Two worlds that resemble each other, as their templates differ in an instance that can do
nothing to others. -/
structure Twins (j : Nat) (S : Others σ) (w w' : World σ) : Prop extends Resembles j S w w' where
  left : w.Confines S j
  right : w'.Confines S j
  templates : ∀ k, Option.Rel (fun t t' => t.DifferAt j S t'.toBehavior) (w.template? k)
    (w'.template? k)

/-- The run of an actor shows the same in both. -/
lemma Twins.exists_runs (h : w.Twins j S w') {a : Actor σ} (ha : a ∈ w.actors)
    (hi : a.place = i) :
    ∃ r r', w.run? i = some r ∧ w'.run? i = some r' ∧
      r'.outline S.heedful = r.outline S.heedful := by
  obtain ⟨r, hr⟩ := h.left.reachable.staffed.exists_run ha
  rw [hi] at hr
  obtain ⟨r', hr', hruns⟩ := run?_of_outline h.outline hr
  exact ⟨r, r', hr, hr', hruns⟩

section Together

variable (h : w.Twins j S w') (hnow : w'.now = w.now)

include h hnow

/-- Two users at the same place see the same, as far as they heed it. -/
lemma Twins.step_eq {u u' : User σ} (hu : .user i u ∈ w.actors) (hu' : .user i u' ∈ w'.actors)
    (halike : u.Alike j S u') (hr : w.run? i = some r) (hr' : w'.run? i = some r')
    (hruns : r'.outline S.heedful = r.outline S.heedful) :
    u'.step (w'.viewOf r' u') = u'.step (w.viewOf r u) ∧
      u'.events (w'.viewOf r' u') = u'.events (w.viewOf r u) := by
  cases hlaunched : u.isLaunched with
  | true =>
    have hlaunched' : u'.isLaunched = true := halike.isLaunched.trans hlaunched
    have hnext : r'.pool.nextId = r.pool.nextId := (congrArg (fun o : Run => o.pool.nextId) hruns :)
    obtain ⟨hstep, hevents⟩ :=
      User.step_of_launched (v := w.viewOf r u) (User.phase_of_isLaunched hlaunched')
    obtain ⟨hstep', hevents'⟩ :=
      User.step_of_launched (v := w'.viewOf r' u') (User.phase_of_isLaunched hlaunched')
    refine ⟨?_, by rw [hevents, hevents']⟩
    rw [hstep, hstep', show (w'.viewOf r' u').nextId = (w.viewOf r u).nextId from hnext]
  | false =>
    have hended : u.isEnded = false := (h.left.reachable.staffed.placed _ hu).1
    have henrolled : u.isEnrolled = true := User.isEnrolled_iff.2 ⟨hlaunched, hended⟩
    have henrolled' : u'.isEnrolled = true := by
      rw [User.isEnrolled, halike.isLaunched, halike.isEnded]
      exact henrolled
    have hview : (w'.viewOf r' u').shown S.heedful = (w.viewOf r u).shown S.heedful := by
      rw [h.right.shown_viewOf hr' hu' henrolled', h.left.shown_viewOf hr hu henrolled, h.outline,
        hnow, hruns]
    obtain ⟨hstep, hevents⟩ := halike.step_shown (w.viewOf r u)
    obtain ⟨hstep', hevents'⟩ := halike.step_shown (w'.viewOf r' u')
    rw [← hstep, ← hstep', ← hevents, ← hevents', hview]
    exact ⟨rfl, rfl⟩

/-- Two users that take the step by which they enter the instance in which their behaviors differ
leave the same to be seen. -/
lemma Twins.turn_newOwner {u u' : User σ} {others others' : List (Actor σ)}
    (hactors : w.actors.Perm (.user i u :: others))
    (hactors' : w'.actors.Perm (.user i u' :: others')) (halike : u.Alike j S u')
    (hothers : List.Forall₂ (Actor.Alike j S) (strangers j others) (strangers j others'))
    (hr : w.run? i = some r) (hr' : w'.run? i = some r') (hphase : u.phase = .arrived)
    (hstep : u'.step (w'.viewOf r' u') = u'.step (w.viewOf r u))
    (hnew : (w.viewOf r u).nextInstance = j) :
    Resembles j S (w.turn (.user i u) others) (w'.turn (.user i u') others') := by
  have hphase' := halike.arrived hphase
  constructor
  · rw [outline_turn_user others hr, outline_turn_user others' hr', stepUser, stepUser,
      Outline.foldl_effect_arrived hphase, Outline.foldl_effect_arrived hphase', hnow, h.outline,
      Outline.effect_congr halike]
  · rw [h.left.reachable.strangers_turn_user hactors hr fun hended => ?_,
      h.right.reachable.strangers_turn_user hactors' hr' fun hended => ?_]
    · exact hothers
    · rw [stepUser, hstep] at hended ⊢
      obtain ⟨hinstance, hnumber⟩ := User.hasInstance_of_arrived hphase' hended
      simp [Actor.owns, hinstance, hnumber, hnew]
    · obtain ⟨hinstance, hnumber⟩ := User.hasInstance_of_arrived hphase hended
      simp [Actor.owns, stepUser, hinstance, hnumber, hnew]

/-- Two users at the same place take their turns. -/
lemma Twins.turn_user {u u' : User σ} {others others' : List (Actor σ)}
    (hactors : w.actors.Perm (.user i u :: others))
    (hactors' : w'.actors.Perm (.user i u' :: others')) (halike : u.Alike j S u')
    (hothers : List.Forall₂ (Actor.Alike j S) (strangers j others) (strangers j others')) :
    Resembles j S (w.turn (.user i u) others) (w'.turn (.user i u') others') := by
  have hu : .user i u ∈ w.actors := hactors.mem_iff.2 (List.mem_cons_self ..)
  have hu' : .user i u' ∈ w'.actors := hactors'.mem_iff.2 (List.mem_cons_self ..)
  obtain ⟨r, r', hr, hr', hruns⟩ := h.exists_runs (i := i) hu rfl
  obtain ⟨hstep, -⟩ := h.step_eq hnow hu hu' halike hr hr' hruns
  by_cases hnew : u.phase = .arrived ∧ (w.viewOf r u).nextInstance = j
  · exact h.turn_newOwner hnow hactors hactors' halike hothers hr hr' hnew.1 hstep hnew.2
  obtain ⟨hnext, heffects⟩ := halike.step fun hphase heq => hnew ⟨hphase, heq⟩
  have hnext' : (w.stepUser r u).Alike j S (w'.stepUser r' u') := by
    rw [stepUser, stepUser, hstep]
    exact hnext
  have houtline : (w'.turn (.user i u') others').outline S.heedful j =
      (w.turn (.user i u) others).outline S.heedful j := by
    rw [outline_turn_user others hr, outline_turn_user others' hr', hstep, heffects, hnow,
      h.outline, Outline.effect_congr hnext']
  refine ⟨houtline, ?_⟩
  obtain ⟨q, hq, hafter⟩ := h.left.reachable.actors_turn_user hactors hr
  obtain ⟨q', hq', hafter'⟩ := h.right.reachable.actors_turn_user hactors' hr'
  have haborted : q'.pool.aborted = q.pool.aborted := by
    obtain ⟨q'', hq'', hsame⟩ := run?_of_outline houtline hq
    cases hq'.symm.trans hq''
    exact (congrArg (fun o : Run => o.pool.aborted) hsame :)
  have hactor := Actor.Alike.user i hnext'
  obtain ⟨hown, hown'⟩ := hactor.not_owns
  rw [hafter, hafter', hnext'.isEnded, hnext'.isSuspended, haborted]
  split_ifs
  · exact hothers
  · rw [strangers_append, strangers_append, strangers_cons hown, strangers_cons hown']
    exact List.rel_append hothers (.cons hactor .nil)
  · rw [strangers_cons hown, strangers_cons hown']
    exact .cons hactor hothers

omit hnow in
/-- The same users are launched in both. -/
lemma Twins.newcomers_alike {next next' : Run × Operation × List Act}
    (hnext : Operation.NextAlike S.heedful next next') (ht : (w.template? next.1.template).isSome) :
    List.Forall₂ (Actor.Alike j S) (strangers j (w.newcomers i next.1 next.2.2))
      (strangers j (w'.newcomers i next'.1 next'.2.2)) := by
  have hsame : next'.1.template = next.1.template := (congrArg Run.template hnext.run :)
  have htemplates := h.templates next.1.template
  generalize ht' : w'.template? next.1.template = template' at htemplates
  obtain ⟨t, ht⟩ := Option.isSome_iff_exists.1 ht
  rw [ht] at htemplates
  cases htemplates with
  | @some _ t' hdiffer =>
    have hstranger : ∀ (t : Template σ) (acts : List Act),
        ∀ a ∈ (launches acts).map (fun l : Nat × Lifecycle =>
          Actor.user i { template := t, lifecycle := l.2, ticket := l.1 }), a.owns j = false := by
      intro t acts a ha
      obtain ⟨l, -, rfl⟩ := List.mem_map.1 ha
      rfl
    rw [newcomers_eq ht, newcomers_eq (hsame ▸ ht'), strangers_eq_self (hstranger t _),
      strangers_eq_self (hstranger t' _), hnext.launches]
    refine List.forall₂_map_left_iff.2 (List.forall₂_map_right_iff.2 (List.forall₂_same.2 ?_))
    exact fun l _ => .user i ⟨hdiffer, rfl, rfl, rfl, rfl, (fun h => nomatch h), .launched⟩

/-- An operation takes its turn in both. -/
lemma Twins.turn_operation {o : Operation} {others others' : List (Actor σ)}
    (ho : .operation o ∈ w.actors)
    (hothers : List.Forall₂ (Actor.Alike j S) (strangers j others) (strangers j others')) :
    Resembles j S (w.turn (.operation o) others) (w'.turn (.operation o) others') := by
  obtain ⟨r, r', hr, hr', hruns⟩ := h.exists_runs (i := o.run) ho rfl
  have hblind := h.left.blind o ho
  have hnext := Operation.step_alike hruns hblind w.now
  have hreleased : (o.step w.now r).1.released = false :=
    (Operation.step_of_isBlind hblind w.now r).2.2.trans (h.left.undisturbed _ r hr).released
  have hreleased' : (o.step w'.now r').1.released = false :=
    (Operation.step_of_isBlind hblind w'.now r').2.2.trans (h.right.undisturbed _ r' hr').released
  have htemplate : (w.template? (o.step w.now r).1.template).isSome := by
    rw [(o.remains_step w.now r).template]
    exact h.left.reachable.staffed.template _ r hr
  have hnewcomers := h.newcomers_alike (i := o.run) hnext htemplate
  have hid : (o.step w.now r').2.1.id = (o.step w.now r).2.1.id :=
    (o.later_step w.now r').2.1.trans (o.later_step w.now r).2.1.symm
  have houtline : (w'.turn (.operation o) others').outline S.heedful j =
      (w.turn (.operation o) others).outline S.heedful j := by
    rw [outline_turn_operation others hr hreleased, outline_turn_operation others' hr' hreleased',
      hnow, hnext.isEnded, hnext.run, hnext.outcome, hid, h.outline]
  refine ⟨houtline, ?_⟩
  cases hends : (o.step w.now r).2.1.isEnded with
  | true =>
    obtain ⟨-, -, -, hafter, -⟩ := turn_operation_ends others hr hends
    obtain ⟨-, -, -, hafter', -⟩ :=
      turn_operation_ends others' hr' (by rw [hnow, hnext.isEnded, hends])
    rw [hafter, hafter', strangers_append, strangers_append, hnow]
    exact List.rel_append hothers hnewcomers
  | false =>
    obtain ⟨-, hafter, -⟩ := turn_operation_goesOn others hr hends
    obtain ⟨-, hafter', -⟩ :=
      turn_operation_goesOn others' hr' (by rw [hnow, hnext.isEnded, hends])
    have hblind' := (Operation.step_of_isBlind hblind w.now r).1
    have hready := Operation.isReady_of_outline hnext.run hblind' w.now
    have hgoesOn : Actor.Alike j S (.operation (o.step w.now r).2.1)
        (.operation (o.step w.now r).2.1) := .operation _
    rw [hafter, hafter', hnow, hnext.goesOn hends, hready]
    split_ifs
    · rw [strangers_append, strangers_append, strangers_cons rfl, strangers_cons rfl]
      exact List.rel_append (.cons hgoesOn hothers) hnewcomers
    · rw [strangers_append, strangers_append, strangers_append, strangers_append]
      exact List.rel_append (List.rel_append hothers hnewcomers) (.cons hgoesOn .nil)

omit hnow in
lemma Twins.turn_watch {tick : Millis} {others others' : List (Actor σ)}
    (hmem : .watch i tick ∈ w.actors)
    (hothers : List.Forall₂ (Actor.Alike j S) (strangers j others) (strangers j others')) :
    Resembles j S (w.turn (.watch i tick) others) (w'.turn (.watch i tick) others') := by
  obtain ⟨r, r', hr, hr', hruns⟩ := h.exists_runs (i := i) hmem rfl
  have hdropped : r'.dropped = r.dropped := (congrArg Run.dropped hruns :)
  have hperiod : r'.watchPeriod = r.watchPeriod := (congrArg Run.watchPeriod hruns :)
  have hraised := Run.isRaised_of_outline hruns
  simp only [turn, hr, hr', hdropped, hraised, hperiod]
  split_ifs
  · exact ⟨h.outline, hothers⟩
  · refine ⟨?_, hothers⟩
    have hpool : Run.outline S.heedful { r' with pool := r'.pool.abortAll.2 } =
        Run.outline S.heedful { r with pool := r.pool.abortAll.2 } :=
      (congrArg (fun o : Run => { o with pool := { o.pool with aborted := true } }) hruns :)
    rw [hdropped] at hpool
    exact outline_setRun_congr h.outline hpool i
  · refine ⟨h.outline, ?_⟩
    rw [strangers_append, strangers_append]
    exact List.rel_append hothers (.cons (.watch i _) .nil)

omit hnow in
lemma Twins.turn_alarm {due : Millis} {others others' : List (Actor σ)}
    (hmem : .alarm i due ∈ w.actors)
    (hothers : List.Forall₂ (Actor.Alike j S) (strangers j others) (strangers j others')) :
    Resembles j S (w.turn (.alarm i due) others) (w'.turn (.alarm i due) others') := by
  obtain ⟨r, r', hr, hr', hruns⟩ := h.exists_runs (i := i) hmem rfl
  simp only [turn, hr, hr']
  refine ⟨?_, hothers⟩
  have hraise : r'.raise.2.outline S.heedful = r.raise.2.outline S.heedful :=
    (congrArg (fun o : Run => o.raise.2) hruns :)
  exact outline_setRun_congr h.outline hraise i

/-- The same actor takes its turn in both at the same instant. -/
lemma Twins.turn {a a' : Actor σ} {others others' : List (Actor σ)}
    (hactors : w.actors.Perm (a :: others)) (hactors' : w'.actors.Perm (a' :: others'))
    (halike : a.Alike j S a')
    (hothers : List.Forall₂ (Actor.Alike j S) (strangers j others) (strangers j others')) :
    Resembles j S (w.turn a others) (w'.turn a' others') := by
  have ha : a ∈ w.actors := hactors.mem_iff.2 (List.mem_cons_self ..)
  cases halike with
  | user i hu => exact h.turn_user hnow hactors hactors' hu hothers
  | operation o => exact h.turn_operation hnow ha hothers
  | watch i tick => exact h.turn_watch ha hothers
  | alarm i due => exact h.turn_alarm ha hothers

end Together

end World

end LoadTest
