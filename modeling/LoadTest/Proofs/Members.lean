import LoadTest.Proofs.Aborting
import Mathlib.Data.List.Nodup
import Mathlib.Data.List.Perm.Basic

/-!
# Who is within reach of a pool

Each operation on a pool adds one user, loses one, moves some from the live to the draining ones, or
leaves all of them where they are. The facts are about ids, up to their order: `Pool.ids` of
everyone within reach, and those of the live and of the draining ones.
-/

namespace LoadTest

/-! ### Lists of members -/

lemma perm_insertMember (m : Member) (ms : List Member) : (insertMember m ms).Perm (m :: ms) := by
  induction ms with
  | nil => exact .refl _
  | cons n ms ih =>
    rw [insertMember]
    split_ifs
    · exact .refl _
    · exact (ih.cons n).trans (.swap m n ms)

lemma perm_foldr_insertMember (ms ns : List Member) :
    (ms.foldr insertMember ns).Perm (ms ++ ns) := by
  induction ms with
  | nil => exact .refl _
  | cons m ms ih => exact (perm_insertMember m _).trans (ih.cons m)

lemma perm_takeOldest (mode : Mode) (amount : Nat) (ms : List Member) :
    ((takeOldest mode amount ms).1 ++ (takeOldest mode amount ms).2).Perm ms := by
  induction ms generalizing amount with
  | nil => simp [takeOldest]
  | cons m ms ih =>
    cases amount with
    | zero => simp [takeOldest]
    | succ amount =>
      rw [takeOldest]
      split_ifs
      · exact (ih amount).cons m
      · exact List.perm_middle.trans ((ih (amount + 1)).cons m)

lemma map_id_change {f : Member → Member} (hf : ∀ m, (f m).id = m.id) (ids : List UserId)
    (ms : List Member) :
    (ms.map fun m => if m.id ∈ ids then f m else m).map Member.id = ms.map Member.id := by
  rw [List.map_map]
  refine List.map_congr_left fun m _ => ?_
  show (if m.id ∈ ids then f m else m).id = m.id
  split_ifs
  · exact hf m
  · rfl

lemma map_id_filter (id : UserId) (ms : List Member) :
    (ms.filter (·.id != id)).map Member.id = (ms.map Member.id).filter (· != id) := by
  rw [List.filter_map]
  rfl

/-- Who is not among some members is not lost by leaving them out. -/
lemma filter_ne_of_not_mem {id : UserId} {ids : List UserId} (h : id ∉ ids) :
    ids.filter (· != id) = ids := by
  refine List.filter_eq_self.2 fun a ha => ?_
  have hne : a ≠ id := fun heq => h (heq ▸ ha)
  simpa using hne

namespace Pool

/-! ### Ids -/

def liveIds (p : Pool) : List UserId := p.live.map Member.id

def drainingIds (p : Pool) : List UserId := p.draining.map Member.id

/-- The ids of everyone within reach. -/
def ids (p : Pool) : List UserId := p.liveIds ++ p.drainingIds

variable {p : Pool} {id : UserId}

lemma map_id_members (p : Pool) : p.members.map Member.id = p.ids := List.map_append

@[simp] lemma length_liveIds (p : Pool) : p.liveIds.length = p.live.length := List.length_map _

@[simp] lemma length_drainingIds (p : Pool) : p.drainingIds.length = p.draining.length :=
  List.length_map _

lemma isLive_iff : p.isLive id = true ↔ id ∈ p.liveIds := by
  simp [isLive, liveIds]

/-! ### Arriving -/

lemma liveIds_register (p : Pool) (m : Member) :
    (p.register m).liveIds.Perm (m.id :: p.liveIds) := by
  have hperm := (perm_insertMember (if p.aborted then m.abort else m) p.live).map Member.id
  have hid : (if p.aborted then m.abort else m).id = m.id := by split_ifs <;> rfl
  rwa [List.map_cons, hid] at hperm

lemma ids_register (p : Pool) (m : Member) : (p.register m).ids.Perm (m.id :: p.ids) :=
  (p.liveIds_register m).append_right p.drainingIds

/-! ### Leaving -/

lemma nextId_deregister (p : Pool) (id : UserId) : (p.deregister id).nextId = p.nextId := by
  rw [deregister]
  split_ifs <;> rfl

lemma liveIds_deregister (p : Pool) (id : UserId) :
    (p.deregister id).liveIds = p.liveIds.filter (· != id) := by
  rw [deregister]
  split_ifs with hlive
  · exact map_id_filter id p.live
  · rw [isLive_iff] at hlive
    exact (filter_ne_of_not_mem hlive).symm

/-- Someone who is live does not drain, so the end of a live user leaves the draining ones alone. -/
lemma drainingIds_deregister (hnodup : p.ids.Nodup) (id : UserId) :
    (p.deregister id).drainingIds = p.drainingIds.filter (· != id) := by
  rw [deregister]
  split_ifs with hlive
  · rw [isLive_iff] at hlive
    have hdisjoint := List.disjoint_of_nodup_append hnodup
    exact (filter_ne_of_not_mem fun h => hdisjoint hlive h).symm
  · exact map_id_filter id p.draining

lemma ids_deregister (hnodup : p.ids.Nodup) (id : UserId) :
    (p.deregister id).ids = p.ids.filter (· != id) := by
  rw [ids, liveIds_deregister, drainingIds_deregister hnodup, ids, List.filter_append]

/-! ### Being taken out of the live ones -/

/-- The ids of those that are taken out. -/
def takenIds (p : Pool) (amount : Nat) (mode : Mode) : List UserId :=
  (p.take amount mode).1.map Member.id

lemma liveIds_take (p : Pool) (amount : Nat) (mode : Mode) :
    (p.takenIds amount mode ++ (p.take amount mode).2.liveIds).Perm p.liveIds := by
  have hperm := (perm_takeOldest mode amount p.live).map Member.id
  rwa [List.map_append] at hperm

lemma drainingIds_take (p : Pool) (amount : Nat) (mode : Mode) :
    (p.take amount mode).2.drainingIds.Perm (p.takenIds amount mode ++ p.drainingIds) := by
  have hperm := (perm_foldr_insertMember (p.take amount mode).1 p.draining).map Member.id
  rwa [List.map_append] at hperm

lemma ids_take (p : Pool) (amount : Nat) (mode : Mode) : (p.take amount mode).2.ids.Perm p.ids := by
  have hdraining := (p.drainingIds_take amount mode).append_left (p.take amount mode).2.liveIds
  refine hdraining.trans ?_
  rw [← List.append_assoc]
  exact (List.perm_append_comm.trans (p.liveIds_take amount mode)).append_right p.drainingIds

/-! ### Staying -/

lemma liveIds_update {f : Member → Member} (hf : ∀ m, (f m).id = m.id) (p : Pool)
    (ids : List UserId) : (p.update f ids).liveIds = p.liveIds := map_id_change hf ids p.live

lemma drainingIds_update {f : Member → Member} (hf : ∀ m, (f m).id = m.id) (p : Pool)
    (ids : List UserId) : (p.update f ids).drainingIds = p.drainingIds :=
  map_id_change hf ids p.draining

lemma ids_update {f : Member → Member} (hf : ∀ m, (f m).id = m.id) (p : Pool)
    (ids : List UserId) : (p.update f ids).ids = p.ids := by
  rw [Pool.ids, liveIds_update hf, drainingIds_update hf, Pool.ids]

@[simp] lemma liveIds_abortAll (p : Pool) : p.abortAll.2.liveIds = p.liveIds := by
  simp [liveIds, abortAll, Member.abort, Member.requestStop]

@[simp] lemma drainingIds_abortAll (p : Pool) : p.abortAll.2.drainingIds = p.drainingIds := by
  simp [drainingIds, abortAll, Member.abort, Member.requestStop]

@[simp] lemma ids_abortAll (p : Pool) : p.abortAll.2.ids = p.ids := by
  rw [ids, liveIds_abortAll, drainingIds_abortAll, ids]

end Pool

end LoadTest
