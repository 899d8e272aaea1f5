import LoadTest.Proofs.Moves
import LoadTest.Proofs.Sleeping
import LoadTest.Proofs.Watching
import Mathlib.Logic.Hydra

/-!
# How a world comes to rest

Every user is of the template of its run. If all templates sleep in their cycles, whoever acts at an
instant has but finitely many turns before it falls asleep or is gone: a user that falls asleep does
so for a later instant, a watch goes on to its next tick, and an operation gets closer to its end,
even if it launches users. So do they all together, whoever of them takes a turn.
-/

namespace LoadTest

variable {σ : Type}

/-! ### Descending together -/

/-- One of some things has made way for some that are below it. -/
def Lessens {α : Type} (r : α → α → Prop) : Multiset α → Multiset α → Prop :=
  Relation.CutExpand fun b a => r b a ∧ Acc r a

/-- Things below each of which the descent ends do not descend forever together. -/
lemma acc_lessens {α : Type} {r : α → α → Prop} {as : Multiset α} (has : ∀ a ∈ as, Acc r a) :
    Acc (Lessens r) as := by
  have : Std.Irrefl fun b a : α => r b a ∧ Acc r a := by
    constructor
    rintro a ⟨hself, hacc⟩
    induction hacc with
    | intro a _ ih => exact ih a hself hself
  refine Relation.acc_of_singleton fun a ha => Acc.cutExpand ?_
  have hacc := has a ha
  clear ha
  induction hacc with
  | intro a _ ih => exact Acc.intro a fun b hb => ih b hb.1

lemma lessens_of_perm {α : Type} {r : α → α → Prop} {a : α} {as bs others new : List α}
    (hacc : Acc r a) (has : as.Perm (a :: others)) (hbs : bs.Perm (new ++ others))
    (hnew : ∀ b ∈ new, r b a) : Lessens r bs as := by
  refine ⟨(new : Multiset α), a, fun b hb => ⟨hnew b (Multiset.mem_coe.1 hb), hacc⟩, ?_⟩
  rw [Multiset.coe_eq_coe.2 has, Multiset.coe_eq_coe.2 hbs, ← Multiset.coe_singleton,
    Multiset.coe_add, Multiset.coe_add, Multiset.coe_eq_coe]
  exact (List.perm_append_singleton _ _).trans (List.perm_append_comm.cons a)

/-! ### Falling asleep -/

lemma lt_wakeTime {duration : Millis} (h : duration ≠ 0) (now : Millis) :
    now < wakeTime now duration :=
  Nat.lt_add_of_pos_right (Nat.lt_min.2 ⟨Nat.pos_of_ne_zero h, by decide⟩)

/-- An activation that falls asleep wakes up later. -/
lemma Activation.lt_wakeAt_step {a a' : Activation σ} {now : Millis} {run : Option RunView}
    (h : (a.step now run).1 = .going a') {t : Millis} (ht : a'.wakeAt = some t) : now < t := by
  obtain ⟨routine, opened, wakeAt⟩ := a
  cases wakeAt with
  | some wakeAt =>
    cases h
    cases ht
  | none =>
    cases routine with
    | finish state failure =>
      cases opened <;> cases h
      cases ht
    | sleep d next =>
      cases d with
      | zero =>
        cases h
        cases ht
      | succ d =>
        cases h
        cases ht
        exact lt_wakeTime (Nat.succ_ne_zero d) now
    | raise next =>
      cases run <;> cases h <;> cases ht
    | _ =>
      cases h
      try cases ht

namespace User

variable {u : User σ} {v : View}

/-- A user that is asleep after a step wakes up later. -/
lemma lt_wakeAt_step {t : Millis} (ht : (u.step v).1.wakeAt? = some t) : v.now < t := by
  have hended : (u.step v).1.isEnded = false := by
    by_contra hnot
    rw [wakeAt?, phase_of_isEnded (by simpa using hnot)] at ht
    cases ht
  have hmoves := movesTo_of_isEnded hended
  rw [wakeAt?] at ht
  generalize (u.step v).1.phase = p at hmoves ht
  cases hmoves with
  | goesOn hphase hstep => exact Activation.lt_wakeAt_step hstep ht
  | returns hphase hstep hnext =>
    cases hnext with
    | pause hpause =>
      cases ht
      exact lt_wakeTime hpause v.now
    | firstCycle hl =>
      obtain ⟨word, hbegin⟩ := u.phase_beginCycle _ 0
      rw [hbegin] at ht
      cases ht
    | endOfCycle => rcases u.phase_endCycle _ _ with h | h <;> rw [h] at ht <;> cases ht
    | _ => cases ht
  | wakes hphase => rcases u.phase_endCycle _ _ with h | h <;> rw [h] at ht <;> cases ht
  | begins hphase hgoes =>
    obtain ⟨word, hbegin⟩ := u.phase_beginCycle _ _
    rw [hbegin] at ht
    cases ht
  | _ => cases ht

end User

/-! ### Templates of users -/

namespace World

variable {w v : World σ} {i : Nat} {r : Run} {t : Template σ}

/-- All others remain, and with them what is left of the actor and whom it has launched. -/
lemma Lineup.perm {a : Actor σ} {others : List (Actor σ)} (h : Lineup w v a others) :
    ∃ new, v.actors.Perm (new ++ others) ∧ ∀ b ∈ new, w.Succeeds a b ∨ w.Launches a b := by
  cases h with
  | leaves users hnew hactors =>
    exact ⟨users, hactors ▸ List.perm_append_comm, fun b hb => .inr (hnew b hb)⟩
  | @stays users hnew b hb hgoes hready hactors =>
    refine ⟨b :: users, ?_, List.forall_mem_cons.2 ⟨.inl hb, fun c hc => .inr (hnew c hc)⟩⟩
    rw [hactors]
    exact List.perm_append_comm.cons b
  | dies hb hsuspended hr haborted hactors =>
    exact ⟨[_], .of_eq hactors, by simpa using .inl hb⟩
  | @rests users hnew b hb hmidway hactors =>
    refine ⟨b :: users, ?_, List.forall_mem_cons.2 ⟨.inl hb, fun c hc => .inr (hnew c hc)⟩⟩
    rw [hactors]
    exact (List.perm_append_singleton b _).trans (List.perm_append_comm.cons b)

lemma Staffed.template_turn (hw : w.Staffed) {a : Actor σ} {others : List (Actor σ)}
    (hactors : w.actors.Perm (a :: others)) (j : Nat) :
    (w.turn a others).template? j = w.template? j := by
  have ha : a ∈ w.actors := hactors.mem_iff.2 (List.mem_cons_self ..)
  obtain ⟨r, hr⟩ := hw.exists_run ha
  obtain ⟨new, q, hturn⟩ := hw.replaces hactors hr
  exact hturn.apart.templates j

lemma Call.template (h : Call w v) {j : Nat} (ht : w.template? j = some t) :
    v.template? j = some t := by
  cases h with
  | cast b =>
    rw [World.cast]
    split
    next => exact ht
    next template heq =>
      obtain ⟨c, hc, rfl⟩ := Option.map_eq_some_iff.1 ht
      show ((w.castings ++ [({ template } : Casting σ)])[j]?).map Casting.template = _
      rw [List.getElem?_append_left (List.getElem?_eq_some_iff.1 hc).1, hc]
      rfl
  | raise j => exact ((w.apart_raise j).templates _).trans ht
  | abort j => exact ((w.apart_abort j).templates _).trans ht
  | release j => exact ((w.apart_release j).templates _).trans ht
  | _ => exact ht

/-- The run at a place is of a template. -/
def IsRunOf (w : World σ) (i : Nat) (t : Template σ) : Prop :=
  ∃ r, w.run? i = some r ∧ w.template? r.template = some t

lemma Staffed.isRunOf_turn (hw : w.Staffed) {a : Actor σ} {others : List (Actor σ)}
    (hactors : w.actors.Perm (a :: others)) (h : w.IsRunOf i t) :
    (w.turn a others).IsRunOf i t := by
  obtain ⟨r, hr, ht⟩ := h
  obtain ⟨q, hq, -, hremains⟩ := hw.run_turn hactors hr
  exact ⟨q, hq, by rw [hw.template_turn hactors, hremains.template, ht]⟩

lemma Call.isRunOf (hcall : Call w v) (h : w.IsRunOf i t) : v.IsRunOf i t := by
  obtain ⟨r, hr, ht⟩ := h
  obtain ⟨q, hq, -, hremains⟩ := hcall.run hr
  exact ⟨q, hq, hcall.template (hremains.template ▸ ht)⟩

/-- Every user is of the template of its run. -/
theorem Reachable.isOf (hw : w.Reachable) {u : User σ} (hu : .user i u ∈ w.actors) :
    ∃ t, w.IsRunOf i t ∧ u.IsOf t := by
  induction hw generalizing i u with
  | empty hruns hactors => exact absurd (hactors ▸ hu) List.not_mem_nil
  | @step w v hw hstep ih =>
    cases hstep with
    | wait hnow => exact ih hu
    | @turn a before after hactors hready =>
      have hperm : w.actors.Perm (a :: (before ++ after)) := hactors ▸ List.perm_middle
      have ha : a ∈ w.actors := hperm.mem_iff.2 (List.mem_cons_self ..)
      have hstay : ∀ {t : Template σ}, w.IsRunOf i t →
          (w.turn a (before ++ after)).IsRunOf i t := hw.staffed.isRunOf_turn hperm
      obtain ⟨new, hafter, hnew⟩ := (hw.staffed.lineup ha (before ++ after)).perm
      rcases (List.mem_append.1 (hafter.mem_iff.1 hu)).symm.imp_right (hnew _) with hu | hu | hu
      · obtain ⟨t, ht, hof⟩ := ih (hperm.mem_iff.2 (List.mem_cons_of_mem _ hu))
        exact ⟨t, hstay ht, hof⟩
      · cases hu with
        | user hr hgoes =>
          obtain ⟨t, ht, hof⟩ := ih ha
          exact ⟨t, hstay ht, hof.step _⟩
      · cases hu with
        | user lifecycle ticket hr ht => exact ⟨_, hstay ⟨_, hr, ht⟩, User.isOf_launched ..⟩
  | call hw hcall ih =>
    obtain ⟨t, ht, hof⟩ := ih ((hcall.joins.2 _ hu).resolve_right fun h => h.1 _ _ rfl)
    exact ⟨t, hcall.isRunOf ht, hof⟩

end World

/-! ### Turns at one instant -/

/-- What an actor may leave by its turn at an instant: a user that is not asleep takes a step, a
watch whose tick has come waits for the next one, and an operation gets closer to its end and may
launch users. -/
inductive Actor.Stirs (now : Millis) : Actor σ → Actor σ → Prop
  | user {i : Nat} {u : User σ} {v : View} (hnow : v.now = now)
      (hdue : ∀ t, u.wakeAt? = some t → t ≤ now) (hgoes : (u.step v).1.isEnded = false) :
      Stirs now (.user i (u.step v).1) (.user i u)
  | watch {i : Nat} {tick period : Millis} (hdue : tick ≤ now) (hperiod : 0 < period) :
      Stirs now (.watch i (tick + period)) (.watch i tick)
  | operation {o o' : Operation} (hsize : agendaSize o'.agenda < agendaSize o.agenda) :
      Stirs now (.operation o') (.operation o)
  | launched {o : Operation} {t : Template σ} (ht : t.SleepsInCycles) (lifecycle : Lifecycle)
      (ticket : Nat) :
      Stirs now (.user o.run { template := t, lifecycle, ticket }) (.operation o)

namespace Actor

variable {now : Millis} {a b : Actor σ}

/-- A user does not stir forever at one instant. -/
lemma acc_stirs_user {u : User σ} (hu : Acc (User.GoesOn User.isAsleep) u) (i : Nat) :
    Acc (Stirs now) (.user i u) := by
  induction hu with
  | intro u _ ih =>
    refine Acc.intro _ ?_
    rintro _ (⟨rfl, hdue, hgoes⟩ | _)
    rename_i v
    cases hasleep : (u.step v).1.isAsleep with
    | false => exact ih _ ⟨v, rfl, hgoes, hasleep⟩
    | true =>
      obtain ⟨t, ht⟩ := Option.isSome_iff_exists.1 hasleep
      refine Acc.intro _ ?_
      rintro _ (⟨hnow, hdue', -⟩ | _)
      exact absurd (User.lt_wakeAt_step ht) (Nat.not_lt.2 (hdue' t ht))

lemma acc_stirs_watch (i : Nat) (tick : Millis) : Acc (Stirs (σ := σ) now) (.watch i tick) := by
  induction hleft : now + 1 - tick using Nat.strongRecOn generalizing tick with
  | ind n ih =>
    refine Acc.intro _ ?_
    rintro _ (_ | ⟨hdue, hperiod⟩)
    refine ih _ (hleft ▸ ?_) _ rfl
    exact Nat.sub_lt_sub_left (Nat.lt_succ_of_le hdue) (Nat.lt_add_of_pos_right hperiod)

lemma acc_stirs_operation (o : Operation) : Acc (Stirs (σ := σ) now) (.operation o) := by
  induction hsize : agendaSize o.agenda using Nat.strongRecOn generalizing o with
  | ind n ih =>
    refine Acc.intro _ ?_
    rintro _ (_ | _ | hlt | ⟨ht, lifecycle, ticket⟩)
    · exact ih _ (hsize ▸ hlt) _ rfl
    · exact acc_stirs_user ((User.isOf_launched ..).acc ht) _

end Actor

namespace World

variable {w v : World σ}

/-- What is left of an actor by its turn has stirred. -/
lemma Succeeds.stirs {a b : Actor σ} (h : w.Succeeds a b) (hready : w.isReady a = true) :
    b.Stirs w.now a := by
  cases h with
  | @user i u r hr hgoes =>
    refine .user rfl (fun t ht => ?_) hgoes
    rw [isReady, ht, hr, Option.any_some, Bool.or_eq_true, decide_eq_true_eq] at hready
    refine hready.resolve_right fun haborted => ?_
    have hsuspended : u.isSuspended = true := by
      by_contra hnot
      rw [User.wakeAt?_of_isSuspended (by simpa using hnot)] at ht
      cases ht
    rw [(stepUser_of_isAborted haborted hsuspended).1] at hgoes
    cases hgoes
  | operation hr hgoes => exact .operation (Operation.agendaSize_step_lt hgoes)
  | @watch i tick r hr hdropped hraised =>
    refine .watch ?_ (Nat.lt_of_lt_of_le Nat.zero_lt_one (Nat.le_max_right _ _))
    simpa [isReady, hr, hdropped] using hready

lemma Launches.stirs {a b : Actor σ} (h : w.Launches a b)
    (hsleeps : ∀ j t, w.template? j = some t → t.SleepsInCycles) (now : Millis) :
    b.Stirs now a := by
  cases h with
  | user lifecycle ticket hr ht => exact .launched (hsleeps _ _ ht) lifecycle ticket

/-- One of some actors has stirred at an instant. -/
def Calms (now : Millis) : List (Actor σ) → List (Actor σ) → Prop :=
  InvImage (Lessens (Actor.Stirs now)) fun as => (as : Multiset (Actor σ))

lemma Reachable.acc_stirs (hw : w.Reachable)
    (hsleeps : ∀ j t, w.template? j = some t → t.SleepsInCycles)
    {a : Actor σ} (ha : a ∈ w.actors) (now : Millis) : Acc (Actor.Stirs now) a := by
  cases a with
  | user i u =>
    obtain ⟨t, ⟨r, -, ht⟩, hof⟩ := hw.isOf ha
    exact Actor.acc_stirs_user (hof.acc (hsleeps _ t ht)) i
  | operation o => exact Actor.acc_stirs_operation o
  | watch i tick => exact Actor.acc_stirs_watch i tick
  | alarm i due => exact Acc.intro _ fun _ h => by cases h

/-- Actors that do not stir forever one by one do not do so together. -/
lemma acc_calms {now : Millis} {as : List (Actor σ)} (has : ∀ a ∈ as, Acc (Actor.Stirs now) a) :
    Acc (Calms now) as :=
  InvImage.accessible _ (acc_lessens fun a ha => has a (Multiset.mem_coe.1 ha))

/-- The turn of one of some actors calms them. -/
lemma calms_of_stirs {now : Millis} {a : Actor σ} {as bs others new : List (Actor σ)}
    (hacc : Acc (Actor.Stirs now) a) (has : as.Perm (a :: others)) (hbs : bs.Perm (new ++ others))
    (hnew : ∀ b ∈ new, b.Stirs now a) : Calms now bs as := lessens_of_perm hacc has hbs hnew

end World

end LoadTest
