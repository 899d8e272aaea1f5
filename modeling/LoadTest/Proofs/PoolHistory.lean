import LoadTest.Proofs.Members
import Mathlib.Logic.Relation
import Mathlib.Order.Bounds.Basic

/-!
# Histories of a pool

A new pool, and any operations on it in any order: an id is handed out, the user of an id that was
handed out registers, users are taken out of the live ones, everyone is aborted, the registration of
a user is dropped. Meanwhile users may be asked to stop, or be aborted one by one. A `PoolHistory`
keeps the book of this, and `Inv` is what holds of the pool and of its book at all times.
-/

namespace LoadTest

/-- A pool, and what has been done to it. -/
structure PoolHistory where
  pool : Pool := {}
  /-- The ids that were handed out. -/
  issued : List UserId := []
  /-- Who has registered. -/
  registered : List UserId := []
  /-- Whose registration has been dropped. -/
  released : List UserId := []
  /-- How many users were live in each state so far. -/
  liveCounts : List Nat := [0]

namespace PoolHistory

/-- The pool becomes another one. -/
def next (h : PoolHistory) (pool : Pool) : PoolHistory :=
  { h with pool, liveCounts := pool.live.length :: h.liveCounts }

def issueId (h : PoolHistory) : PoolHistory :=
  { h.next h.pool.issueId.2 with issued := h.pool.issueId.1 :: h.issued }

def register (h : PoolHistory) (m : Member) : PoolHistory :=
  { h.next (h.pool.register m) with registered := m.id :: h.registered }

def take (h : PoolHistory) (amount : Nat) (mode : Mode) : PoolHistory :=
  h.next (h.pool.take amount mode).2

def abortAll (h : PoolHistory) : PoolHistory := h.next h.pool.abortAll.2

/-- The registration of a user is dropped. -/
def release (h : PoolHistory) (id : UserId) : PoolHistory :=
  { h.next (h.pool.deregister id) with released := id :: h.released }

/-- One operation. A user registers once, under an id that was handed out, and its registration is
dropped once. -/
inductive Step : PoolHistory → PoolHistory → Prop
  | issueId {h : PoolHistory} : Step h h.issueId
  | register {h : PoolHistory} {m : Member} (hissued : m.id ∈ h.issued)
      (hnew : m.id ∉ h.registered) : Step h (h.register m)
  | take {h : PoolHistory} (amount : Nat) (mode : Mode) : Step h (h.take amount mode)
  | abortAll {h : PoolHistory} : Step h h.abortAll
  | release {h : PoolHistory} {id : UserId} (hregistered : id ∈ h.registered)
      (hheld : id ∉ h.released) : Step h (h.release id)
  | requestStop {h : PoolHistory} (ids : List UserId) :
      Step h (h.next (h.pool.update .requestStop ids))
  | abort {h : PoolHistory} (ids : List UserId) : Step h (h.next (h.pool.update .abort ids))

abbrev Steps : PoolHistory → PoolHistory → Prop := Relation.ReflTransGen Step

/-- The histories that begin with a new pool. -/
def Reachable (h : PoolHistory) : Prop := Steps {} h

/-! ### The invariant -/

/-- What holds of a pool and its book at all times. -/
structure Inv (h : PoolHistory) : Prop where
  issued : h.issued.Nodup
  lt : ∀ id ∈ h.issued, id < h.pool.nextId
  registered : ∀ id ∈ h.registered, id ∈ h.issued
  released : ∀ id ∈ h.released, id ∈ h.registered
  nodup : h.pool.ids.Nodup
  /-- Within reach is who has registered, and not been released. -/
  mem : ∀ id, id ∈ h.pool.ids ↔ id ∈ h.registered ∧ id ∉ h.released
  count : h.pool.count = h.pool.live.length
  counted : h.pool.live.length ∈ h.liveCounts
  peak : IsGreatest {n | n ∈ h.liveCounts} h.pool.peak
  sound : h.pool.Sound

lemma inv_new : Inv {} where
  issued := List.nodup_nil
  lt := by simp
  registered := by simp
  released := by simp
  nodup := List.nodup_nil
  mem := by simp [Pool.ids, Pool.liveIds, Pool.drainingIds]
  count := rfl
  counted := by simp
  peak := by simp [IsGreatest, upperBounds]
  sound := fun h => nomatch h

namespace Inv

variable {h : PoolHistory} {p : Pool}

/-- A published number of live users is counted in. -/
lemma peak_of_publish (hh : h.Inv) (hp : p.peak = max h.pool.peak p.live.length) :
    IsGreatest {n | n ∈ p.live.length :: h.liveCounts} p.peak := by
  obtain ⟨hmem, hle⟩ := hh.peak
  rw [hp]
  constructor
  · rcases Nat.le_total h.pool.peak p.live.length with hless | hless
    · rw [Nat.max_eq_right hless]
      exact List.mem_cons_self ..
    · rw [Nat.max_eq_left hless]
      exact List.mem_cons_of_mem _ hmem
  · intro n hn
    rcases List.mem_cons.1 hn with rfl | hn
    · exact Nat.le_max_right ..
    · exact (hle hn).trans (Nat.le_max_left ..)

/-- As long as the number of live users is the same, nothing need be published. -/
lemma peak_of_same (hh : h.Inv) (hpeak : p.peak = h.pool.peak)
    (hlive : p.live.length = h.pool.live.length) :
    IsGreatest {n | n ∈ p.live.length :: h.liveCounts} p.peak := by
  obtain ⟨hmem, hle⟩ := hh.peak
  rw [hpeak, hlive]
  refine ⟨List.mem_cons_of_mem _ hmem, fun n hn => ?_⟩
  rcases List.mem_cons.1 hn with rfl | hn
  · exact hle hh.counted
  · exact hle hn

/-- The pool may change as long as everyone stays where they are. -/
lemma next (hh : h.Inv) (hlive : p.liveIds = h.pool.liveIds)
    (hdraining : p.drainingIds = h.pool.drainingIds) (hnext : p.nextId = h.pool.nextId)
    (hcount : p.count = h.pool.count) (hpeak : p.peak = h.pool.peak) (hlater : h.pool.Later p) :
    (h.next p).Inv := by
  have hids : p.ids = h.pool.ids := by rw [Pool.ids, hlive, hdraining, Pool.ids]
  have hlength : p.live.length = h.pool.live.length := by
    rw [← Pool.length_liveIds, hlive, Pool.length_liveIds]
  exact
    { issued := hh.issued
      lt := fun id hid => hnext ▸ hh.lt id hid
      registered := hh.registered
      released := hh.released
      nodup := hids ▸ hh.nodup
      mem := fun id => hids ▸ hh.mem id
      count := hcount.trans (hh.count.trans hlength.symm)
      counted := List.mem_cons_self ..
      peak := hh.peak_of_same hpeak hlength
      sound := hlater.2 hh.sound }

lemma issueId (hh : h.Inv) : h.issueId.Inv where
  issued := by
    refine List.nodup_cons.2 ⟨fun hmem => ?_, hh.issued⟩
    exact Nat.lt_irrefl _ (hh.lt _ hmem)
  lt id hid := by
    rcases List.mem_cons.1 hid with rfl | hid
    · exact Nat.lt_succ_self _
    · exact Nat.lt_succ_of_lt (hh.lt id hid)
  registered id hid := List.mem_cons_of_mem _ (hh.registered id hid)
  released := hh.released
  nodup := hh.nodup
  mem := hh.mem
  count := hh.count
  counted := List.mem_cons_self ..
  peak := hh.peak_of_same rfl rfl
  sound := (h.pool.later_issueId).2 hh.sound

lemma register (hh : h.Inv) {m : Member} (hissued : m.id ∈ h.issued)
    (hnew : m.id ∉ h.registered) : (h.register m).Inv where
  issued := hh.issued
  lt := hh.lt
  registered id hid := by
    rcases List.mem_cons.1 hid with rfl | hid
    · exact hissued
    · exact hh.registered id hid
  released id hid := List.mem_cons_of_mem _ (hh.released id hid)
  nodup := by
    refine (h.pool.ids_register m).nodup_iff.2 (List.nodup_cons.2 ⟨fun hmem => ?_, hh.nodup⟩)
    exact hnew ((hh.mem m.id).1 hmem).1
  mem id := by
    show id ∈ (h.pool.register m).ids ↔ id ∈ m.id :: h.registered ∧ id ∉ h.released
    rw [(h.pool.ids_register m).mem_iff, List.mem_cons, List.mem_cons, hh.mem]
    constructor
    · rintro (rfl | ⟨hregistered, hheld⟩)
      · exact ⟨.inl rfl, fun hreleased => hnew (hh.released _ hreleased)⟩
      · exact ⟨.inr hregistered, hheld⟩
    · rintro ⟨hid, hheld⟩
      exact hid.imp_right fun hregistered => ⟨hregistered, hheld⟩
  count := rfl
  counted := List.mem_cons_self ..
  peak := hh.peak_of_publish rfl
  sound := (h.pool.later_register m).2 hh.sound

lemma take (hh : h.Inv) (amount : Nat) (mode : Mode) : (h.take amount mode).Inv where
  issued := hh.issued
  lt := hh.lt
  registered := hh.registered
  released := hh.released
  nodup := (h.pool.ids_take amount mode).nodup_iff.2 hh.nodup
  mem id := ((h.pool.ids_take amount mode).mem_iff).trans (hh.mem id)
  count := rfl
  counted := List.mem_cons_self ..
  peak := hh.peak_of_publish rfl
  sound := (h.pool.later_take amount mode).2 hh.sound

lemma release (hh : h.Inv) {id : UserId} (hregistered : id ∈ h.registered) :
    (h.release id).Inv where
  issued := hh.issued
  lt id' hid := h.pool.nextId_deregister id ▸ hh.lt id' hid
  registered := hh.registered
  released id' hid := by
    rcases List.mem_cons.1 hid with rfl | hid
    · exact hregistered
    · exact hh.released id' hid
  nodup := by
    show (h.pool.deregister id).ids.Nodup
    rw [Pool.ids_deregister hh.nodup]
    exact hh.nodup.filter _
  mem id' := by
    show id' ∈ (h.pool.deregister id).ids ↔ id' ∈ h.registered ∧ id' ∉ id :: h.released
    rw [Pool.ids_deregister hh.nodup, List.mem_filter, hh.mem, List.mem_cons, bne_iff_ne,
      not_or, and_assoc, and_comm (a := id' ∉ h.released)]
  count := by
    show (h.pool.deregister id).count = (h.pool.deregister id).live.length
    rw [Pool.deregister]
    split_ifs
    · rfl
    · exact hh.count
  counted := List.mem_cons_self ..
  peak := by
    show IsGreatest {n | n ∈ (h.pool.deregister id).live.length :: h.liveCounts}
      (h.pool.deregister id).peak
    rw [Pool.deregister]
    split_ifs
    · exact hh.peak_of_publish rfl
    · exact hh.peak_of_same rfl rfl
  sound := (h.pool.later_deregister id).2 hh.sound

/-- Some users may be changed, but not their ids. -/
lemma update (hh : h.Inv) {f : Member → Member} (hf : ∀ m, (f m).id = m.id) {ids : List UserId}
    (hlater : h.pool.Later (h.pool.update f ids)) : (h.next (h.pool.update f ids)).Inv :=
  hh.next (Pool.liveIds_update hf _ ids) (Pool.drainingIds_update hf _ ids) rfl rfl rfl hlater

end Inv

/-- Every operation keeps the invariant. -/
theorem Step.inv {h k : PoolHistory} (hstep : Step h k) (hh : h.Inv) : k.Inv := by
  cases hstep with
  | issueId => exact hh.issueId
  | register hissued hnew => exact hh.register hissued hnew
  | take amount mode => exact hh.take amount mode
  | abortAll =>
    exact hh.next (Pool.liveIds_abortAll _) (Pool.drainingIds_abortAll _) rfl rfl rfl
      (Pool.later_abortAll _)
  | release hregistered hheld => exact hh.release hregistered
  | requestStop ids =>
    exact hh.update (f := Member.requestStop) (fun _ => rfl) (Pool.later_requestStop _ ids)
  | abort ids => exact hh.update (f := Member.abort) (fun _ => rfl) (Pool.later_abort _ ids)

lemma Steps.inv {h k : PoolHistory} (hsteps : Steps h k) (hh : h.Inv) : k.Inv := by
  induction hsteps with
  | refl => exact hh
  | tail _ hstep ih => exact hstep.inv ih

lemma Reachable.inv {h : PoolHistory} (hh : h.Reachable) : h.Inv := Steps.inv hh inv_new

/-! ### Main results -/

/-- An abort stays. -/
lemma Step.aborted {h k : PoolHistory} (hstep : Step h k) (hh : h.pool.aborted = true) :
    k.pool.aborted = true := by
  cases hstep with
  | issueId => exact hh
  | register hissued hnew => exact hh
  | take amount mode => exact hh
  | abortAll => rfl
  | release hregistered hheld => exact (Pool.later_deregister _ _).1 hh
  | requestStop ids => exact hh
  | abort ids => exact hh

lemma Steps.aborted {h k : PoolHistory} (hsteps : Steps h k) (hh : h.pool.aborted = true) :
    k.pool.aborted = true := by
  induction hsteps with
  | refl => exact hh
  | tail _ hstep ih => exact hstep.aborted ih

/-- Once everyone has been aborted, so is in every later state whoever is within reach. -/
lemma Reachable.isAborted_of_abortAll {h k : PoolHistory} (hh : h.Reachable)
    (hsteps : Steps h.abortAll k) : ∀ m ∈ k.pool.members, m.IsAborted := by
  have hk : k.Reachable := (hh.tail .abortAll).trans hsteps
  exact hk.inv.sound (hsteps.aborted rfl)

/-- A registered user is live or drains, but not both, until its registration is dropped. -/
lemma Inv.xor_of_registered {h : PoolHistory} (hh : h.Inv) {id : UserId}
    (hregistered : id ∈ h.registered) (hheld : id ∉ h.released) :
    Xor (id ∈ h.pool.liveIds) (id ∈ h.pool.drainingIds) := by
  have hdisjoint := List.disjoint_of_nodup_append hh.nodup
  rcases List.mem_append.1 ((hh.mem id).2 ⟨hregistered, hheld⟩) with hlive | hdraining
  · exact .inl ⟨hlive, fun hdraining => hdisjoint hlive hdraining⟩
  · exact .inr ⟨hdraining, fun hlive => hdisjoint hlive hdraining⟩

/-- The laws of a pool, whatever has been done to it. No id is handed out twice, and everyone within
reach has one that was handed out. Nobody is live twice, drains twice or does both; a registered
user does one of them until its registration is dropped, and neither afterwards. The published count
is the number of live users, and the peak is the greatest such number so far. Once everyone has been
aborted, so is whoever is within reach at any later time. -/
theorem Reachable.membership {h : PoolHistory} (hh : h.Reachable) :
    (h.issued.Nodup ∧ ∀ id ∈ h.pool.ids, id ∈ h.issued) ∧
    (h.pool.liveIds.Nodup ∧ h.pool.drainingIds.Nodup ∧
      h.pool.liveIds.Disjoint h.pool.drainingIds) ∧
    (∀ id ∈ h.registered, id ∉ h.released →
      Xor (id ∈ h.pool.liveIds) (id ∈ h.pool.drainingIds)) ∧
    (∀ id ∈ h.released, id ∉ h.pool.liveIds ∧ id ∉ h.pool.drainingIds) ∧
    h.pool.count = h.pool.live.length ∧
    IsGreatest {n | n ∈ h.liveCounts} h.pool.peak ∧
    ∀ k, Steps h.abortAll k → ∀ m ∈ k.pool.members, m.active = false ∧ m.aborted = true := by
  have hinv := hh.inv
  refine ⟨⟨hinv.issued, fun id hid => hinv.registered id ((hinv.mem id).1 hid).1⟩,
    ⟨hinv.nodup.of_append_left, hinv.nodup.of_append_right,
      List.disjoint_of_nodup_append hinv.nodup⟩,
    fun id hregistered hheld => hinv.xor_of_registered hregistered hheld,
    fun id hreleased => not_or.1 fun hid => ?_, hinv.count, hinv.peak, fun k hsteps m hm => ?_⟩
  · exact ((hinv.mem id).1 (List.mem_append.2 hid)).2 hreleased
  · obtain ⟨haborted, hactive⟩ := hh.isAborted_of_abortAll hsteps m hm
    exact ⟨hactive, haborted⟩

/-- Two looped users, of which the older one is taken out and the other one leaves. -/
def sample : PoolHistory :=
  (((({} : PoolHistory).issueId.issueId.register { id := 1, mode := .looped }).register
    { id := 0, mode := .looped }).take 1 .looped).release 1

lemma reachable_sample : sample.Reachable := by
  refine .tail (.tail (.tail (.tail (.tail (.single .issueId) .issueId) (.register ?_ ?_))
    (.register ?_ ?_)) (.take 1 .looped)) (.release ?_ ?_)
  all_goals decide

/-- Who registers in the sample after an abort is aborted, as is the user that drains. -/
theorem membership_of_sample :
    sample.Reachable ∧ sample.pool.drainingIds = [0] ∧ IsGreatest {n | n ∈ sample.liveCounts} 2 ∧
      ∀ m ∈ (sample.abortAll.issueId.register { id := 2, mode := .regular }).pool.members,
        m.active = false ∧ m.aborted = true := by
  obtain ⟨-, -, -, -, -, hpeak, haborted⟩ := reachable_sample.membership
  refine ⟨reachable_sample, by decide, hpeak, haborted _ ?_⟩
  exact .tail (.single .issueId) (.register (by decide) (by decide))

end PoolHistory

end LoadTest
