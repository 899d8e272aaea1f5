import LoadTest.Proofs.Dealings
import LoadTest.Proofs.PoolHistory

/-!
# Removals

Ids are handed out in increasing order and the live users stand in the order of their ids, so those
that a removal picks from the front are the oldest of their mode. Nothing else of a run moves. Which
users go depends on how many go altogether and on their modes only, so removals at one instant add
up, and those of different modes do not get in each other's way.
-/

namespace LoadTest

/-! ### Picking from the front -/

section

variable {mode mode' : Mode} {amount a b : Nat} {ms : List Member}

@[simp] lemma takeOldest_zero (mode : Mode) (ms : List Member) :
    takeOldest mode 0 ms = ([], ms) := by
  cases ms <;> rfl

@[simp] lemma takeOldest_nil (mode : Mode) (amount : Nat) :
    takeOldest mode amount [] = ([], []) := by
  cases amount <;> rfl

lemma takeOldest_of_mode {m : Member} (hm : m.mode = mode) (amount : Nat) (ms : List Member) :
    takeOldest mode (amount + 1) (m :: ms) =
      (m :: (takeOldest mode amount ms).1, (takeOldest mode amount ms).2) := by
  rw [takeOldest, if_pos hm]

/-- Those of other modes are passed over. -/
lemma takeOldest_of_ne {m : Member} (hm : m.mode ≠ mode) (amount : Nat) (ms : List Member) :
    takeOldest mode amount (m :: ms) =
      ((takeOldest mode amount ms).1, m :: (takeOldest mode amount ms).2) := by
  cases amount with
  | zero => simp
  | succ amount => rw [takeOldest, if_neg hm]

lemma takeOldest_fst (mode : Mode) (amount : Nat) (ms : List Member) :
    (takeOldest mode amount ms).1 = (ms.filter (·.mode = mode)).take amount := by
  induction ms generalizing amount with
  | nil => simp
  | cons m ms ih =>
    by_cases hm : m.mode = mode
    · cases amount with
      | zero => simp
      | succ amount => simp [takeOldest_of_mode hm, hm, ih]
    · simp [takeOldest_of_ne hm, hm, ih]

lemma sublist_takeOldest (mode : Mode) (amount : Nat) (ms : List Member) :
    (takeOldest mode amount ms).2.Sublist ms := by
  induction ms generalizing amount with
  | nil => simp
  | cons m ms ih =>
    by_cases hm : m.mode = mode
    · cases amount with
      | zero => simp
      | succ amount =>
        rw [takeOldest_of_mode hm]
        exact (ih amount).cons m
    · rw [takeOldest_of_ne hm]
      exact (ih amount).cons_cons m

/-- Whoever is picked is older than those of its mode that are not. -/
lemma lt_of_takeOldest (hms : ms.Pairwise (·.id < ·.id)) {t m : Member}
    (ht : t ∈ (takeOldest mode amount ms).1) (hm : m ∈ (takeOldest mode amount ms).2)
    (hmode : m.mode = mode) : t.id < m.id := by
  induction ms generalizing amount with
  | nil => simp at ht
  | cons n ms ih =>
    obtain ⟨hn, hms⟩ := List.pairwise_cons.1 hms
    by_cases hmoden : n.mode = mode
    · cases amount with
      | zero => simp at ht
      | succ amount =>
        rw [takeOldest_of_mode hmoden] at ht hm
        obtain rfl | ht := List.mem_cons.1 ht
        · exact hn m ((sublist_takeOldest mode amount ms).mem hm)
        · exact ih hms ht hm
    · rw [takeOldest_of_ne hmoden] at ht hm
      obtain rfl | hm := List.mem_cons.1 hm
      · exact absurd hmode hmoden
      · exact ih hms ht hm

/-- Picking some and then more is picking all of them. -/
lemma takeOldest_add (mode : Mode) (a b : Nat) (ms : List Member) :
    takeOldest mode (a + b) ms =
      ((takeOldest mode a ms).1 ++ (takeOldest mode b (takeOldest mode a ms).2).1,
        (takeOldest mode b (takeOldest mode a ms).2).2) := by
  induction ms generalizing a with
  | nil => simp
  | cons m ms ih =>
    by_cases hm : m.mode = mode
    · cases a with
      | zero => simp
      | succ a => simp [Nat.add_right_comm, takeOldest_of_mode hm, ih]
    · simp [takeOldest_of_ne hm, ih]

/-- Picking from one mode leaves whom to pick from another one. -/
lemma takeOldest_comm (hne : mode ≠ mode') (a b : Nat) (ms : List Member) :
    takeOldest mode' b (takeOldest mode a ms).2 =
      ((takeOldest mode' b ms).1, (takeOldest mode a (takeOldest mode' b ms).2).2) := by
  induction ms generalizing a b with
  | nil => simp
  | cons m ms ih =>
    by_cases hm : m.mode = mode
    · have hm' : m.mode ≠ mode' := fun h => hne (hm.symm.trans h)
      cases a with
      | zero => simp
      | succ a => simp [takeOldest_of_mode hm, takeOldest_of_ne hm', ih]
    · by_cases hm' : m.mode = mode'
      · cases b with
        | zero => simp
        | succ b => simp [takeOldest_of_mode hm', takeOldest_of_ne hm, ih]
      · simp [takeOldest_of_ne hm, takeOldest_of_ne hm', ih]

end

/-! ### Putting in place -/

lemma insertMember_of_lt {m n : Member} (h : m.id < n.id) (ms : List Member) :
    insertMember m (n :: ms) = m :: n :: ms := if_pos h

lemma insertMember_of_le {m n : Member} (h : n.id ≤ m.id) (ms : List Member) :
    insertMember m (n :: ms) = n :: insertMember m ms := if_neg (Nat.not_lt.2 h)

lemma insertMember_comm_of_lt {m n : Member} (h : m.id < n.id) (ms : List Member) :
    insertMember m (insertMember n ms) = insertMember n (insertMember m ms) := by
  induction ms with
  | nil =>
    show insertMember m [n] = insertMember n [m]
    rw [insertMember_of_lt h, insertMember_of_le h.le]
    rfl
  | cons x ms ih =>
    obtain hm | hm := Nat.lt_or_ge m.id x.id
    · rw [insertMember_of_lt hm, insertMember_of_le h.le]
      obtain hn | hn := Nat.lt_or_ge n.id x.id
      · rw [insertMember_of_lt hn, insertMember_of_lt h]
      · rw [insertMember_of_le hn, insertMember_of_lt hm]
    · have hn : x.id ≤ n.id := hm.trans h.le
      rw [insertMember_of_le hm, insertMember_of_le hn, insertMember_of_le hm,
        insertMember_of_le hn, ih]

/-- It does not matter who is put in place first. -/
lemma insertMember_comm {m n : Member} (hne : m.id ≠ n.id) (ms : List Member) :
    insertMember m (insertMember n ms) = insertMember n (insertMember m ms) := by
  obtain h | h := Nat.lt_or_gt_of_ne hne
  · exact insertMember_comm_of_lt h ms
  · exact (insertMember_comm_of_lt h ms).symm

/-- Members of different ids may be put in place in any order. -/
lemma foldr_insertMember_perm {ns ns' : List Member} (hperm : ns.Perm ns')
    (hnodup : (ns.map Member.id).Nodup) (ms : List Member) :
    ns.foldr insertMember ms = ns'.foldr insertMember ms := by
  have hinj := List.inj_on_of_nodup_map hnodup
  refine hperm.foldr_eq' (fun x hx y hy z => ?_) ms
  by_cases hid : x.id = y.id
  · rw [hinj hx hy hid]
  · exact insertMember_comm (Ne.symm hid) z

lemma map_insertMember {f : Member → Member} (hf : ∀ m, (f m).id = m.id) (m : Member)
    (ms : List Member) : (insertMember m ms).map f = insertMember (f m) (ms.map f) := by
  induction ms with
  | nil => rfl
  | cons n ms ih =>
    simp only [insertMember, List.map_cons, hf]
    split_ifs
    · rfl
    · rw [List.map_cons, ih]

lemma map_foldr_insertMember {f : Member → Member} (hf : ∀ m, (f m).id = m.id)
    (ns ms : List Member) :
    (ns.foldr insertMember ms).map f = (ns.map f).foldr insertMember (ms.map f) := by
  induction ns with
  | nil => rfl
  | cons n ns ih => rw [List.foldr_cons, map_insertMember hf, ih, List.map_cons, List.foldr_cons]

/-- Members in the order of their ids stay so. -/
lemma pairwise_insertMember {m : Member} {ms : List Member} (hms : ms.Pairwise (·.id < ·.id))
    (hm : m.id ∉ ms.map Member.id) : (insertMember m ms).Pairwise (·.id < ·.id) := by
  induction ms with
  | nil => simp [insertMember]
  | cons n ms ih =>
    obtain ⟨hn, hms'⟩ := List.pairwise_cons.1 hms
    rw [List.map_cons, List.mem_cons, not_or] at hm
    obtain hlt | hle := Nat.lt_or_ge m.id n.id
    · rw [insertMember_of_lt hlt]
      refine List.pairwise_cons.2 ⟨fun x hx => ?_, hms⟩
      obtain rfl | hx := List.mem_cons.1 hx
      · exact hlt
      · exact hlt.trans (hn x hx)
    · rw [insertMember_of_le hle]
      refine List.pairwise_cons.2 ⟨fun x hx => ?_, ih hms' hm.2⟩
      obtain rfl | hx := List.mem_cons.1 ((perm_insertMember m ms).mem_iff.1 hx)
      · exact lt_of_le_of_ne hle (Ne.symm hm.1)
      · exact hn x hx

/-! ### Reachable pools -/

/-- A pool whose live users stand in the order of their ids, and are counted. -/
structure Pool.Tidy (p : Pool) : Prop where
  sorted : p.live.Pairwise (·.id < ·.id)
  nodup : p.ids.Nodup
  count : p.count = p.live.length
  peak : p.live.length ≤ p.peak

lemma pairwise_map {f : Member → Member} (hf : ∀ m, (f m).id = m.id) {ms : List Member}
    (hms : ms.Pairwise (·.id < ·.id)) : (ms.map f).Pairwise (·.id < ·.id) := by
  refine List.pairwise_map.2 (hms.imp fun {m n} h => ?_)
  rwa [hf, hf]

namespace PoolHistory

lemma Step.sorted {h k : PoolHistory} (hstep : Step h k) (hh : h.Inv)
    (hsorted : h.pool.live.Pairwise (·.id < ·.id)) : k.pool.live.Pairwise (·.id < ·.id) := by
  cases hstep with
  | issueId => exact hsorted
  | @register m hissued hnew =>
    have hid : (if h.pool.aborted then m.abort else m).id = m.id := by split_ifs <;> rfl
    apply pairwise_insertMember hsorted
    rw [hid]
    intro hlive
    exact hnew ((hh.mem m.id).1 (List.mem_append_left _ hlive)).1
  | take amount mode => exact hsorted.sublist (sublist_takeOldest mode amount _)
  | abortAll => exact pairwise_map (f := Member.abort) (fun _ => rfl) hsorted
  | @release id hregistered hheld =>
    show (h.pool.deregister id).live.Pairwise (·.id < ·.id)
    rw [Pool.deregister]
    split_ifs
    · exact hsorted.filter _
    · exact hsorted
  | requestStop ids => exact pairwise_map (fun m => by split_ifs <;> rfl) hsorted
  | abort ids => exact pairwise_map (fun m => by split_ifs <;> rfl) hsorted

lemma Reachable.tidy {h : PoolHistory} (hh : h.Reachable) : h.pool.Tidy where
  sorted := by
    induction hh with
    | refl => exact .nil
    | tail hsteps hstep ih => exact hstep.sorted (Reachable.inv hsteps) ih
  nodup := hh.inv.nodup
  count := hh.inv.count
  peak := hh.inv.peak.2 hh.inv.counted

/-- Ids are handed out in increasing order: the last ones come first in the book. -/
lemma Reachable.issued_decreasing {h : PoolHistory} (hh : h.Reachable) :
    h.issued.Pairwise (· > ·) := by
  induction hh with
  | refl => exact .nil
  | @tail h k hsteps hstep ih =>
    cases hstep with
    | issueId => exact List.pairwise_cons.2 ⟨fun id hid => (Reachable.inv hsteps).lt id hid, ih⟩
    | register | take | abortAll | release | requestStop | abort => exact ih

end PoolHistory

/-! ### Removals -/

namespace Run

variable {r : Run} {mode mode' : Mode} {amount a b : Nat} {now : Millis}

/-- A run after some of its live users have been removed, and others have been left. -/
def without (r : Run) (taken left : List Member) : Run :=
  { r with
    removed := r.removed + taken.length
    pool :=
      { r.pool with
        live := left
        draining := (taken.map Member.requestStop).foldr insertMember r.pool.draining
        count := left.length } }

/-- What a removal leaves behind. -/
structure Removal (amount : Nat) (mode : Mode) (taken : List Member) (r q : Run) : Prop where
  length : taken.length = min amount (r.pool.live.countP (·.mode = mode))
  modes : ∀ m ∈ taken, m.mode = mode
  /-- Those that stay live are the others, and nothing has happened to them. -/
  live : (taken ++ q.pool.live).Perm r.pool.live
  oldest : ∀ t ∈ taken, ∀ m ∈ q.pool.live, m.mode = mode → t.id < m.id
  draining : q.pool.draining.Perm (taken.map Member.requestStop ++ r.pool.draining)
  removed : q.removed = r.removed + taken.length
  count : q.pool.count + taken.length = r.pool.count
  rest : q =
    { r with
      removed := q.removed
      pool :=
        { r.pool with
          live := q.pool.live, draining := q.pool.draining, count := q.pool.count } }

/-- Members under other ids are not changed. -/
lemma map_change_of_not_mem {f : Member → Member} {ids : List UserId} {ms : List Member}
    (h : ∀ m ∈ ms, m.id ∉ ids) : (ms.map fun m => if m.id ∈ ids then f m else m) = ms := by
  rw [List.map_congr_left fun m hm => if_neg (h m hm), List.map_id']

lemma map_change_of_mem {f : Member → Member} {ids : List UserId} {ms : List Member}
    (h : ∀ m ∈ ms, m.id ∈ ids) : (ms.map fun m => if m.id ∈ ids then f m else m) = ms.map f :=
  List.map_congr_left fun m hm => if_pos (h m hm)

/-- The ids of those taken, of those left and of those that drain already are different ones. -/
lemma nodup_taken (hr : r.pool.Tidy) (amount : Nat) (mode : Mode) :
    (((takeOldest mode amount r.pool.live).1.map Member.id ++
      (takeOldest mode amount r.pool.live).2.map Member.id) ++
        r.pool.draining.map Member.id).Nodup := by
  have hperm := (perm_takeOldest mode amount r.pool.live).map Member.id
  rw [List.map_append] at hperm
  exact (hperm.append_right _).nodup_iff.2 hr.nodup

lemma length_left (r : Run) (amount : Nat) (mode : Mode) :
    (takeOldest mode amount r.pool.live).1.length + (takeOldest mode amount r.pool.live).2.length =
      r.pool.live.length := by
  rw [← List.length_append]
  exact (perm_takeOldest mode amount r.pool.live).length_eq

/-- A removal in one equation. -/
lemma perform_remove (hr : r.pool.Tidy) (hraised : r.isRaised = false) (now : Millis)
    (amount : Nat) (mode : Mode) :
    ((Errand.remove amount mode).perform now r).run =
      r.without (takeOldest mode amount r.pool.live).1 (takeOldest mode amount r.pool.live).2 := by
  have hnodup := nodup_taken hr amount mode
  have hlength := length_left r amount mode
  simp only [Errand.perform, hraised, Bool.false_eq_true, if_false, Pool.take]
  generalize (takeOldest mode amount r.pool.live).1 = taken at hnodup hlength ⊢
  generalize (takeOldest mode amount r.pool.live).2 = left at hnodup hlength ⊢
  have hdisjoint := List.disjoint_of_nodup_append hnodup
  have hdisjoint' := List.disjoint_of_nodup_append hnodup.of_append_left
  have hlive : ∀ m ∈ left, m.id ∉ taken.map Member.id := by
    intro m hm htaken
    exact hdisjoint' htaken (List.mem_map_of_mem hm)
  have hdraining : ∀ m ∈ r.pool.draining, m.id ∉ taken.map Member.id := by
    intro m hm htaken
    exact hdisjoint (List.mem_append_left _ htaken) (List.mem_map_of_mem hm)
  have hpeak : max r.pool.peak left.length = r.pool.peak := by
    apply Nat.max_eq_left
    have := hr.peak
    omega
  have hstop : ∀ m : Member,
      (if m.id ∈ taken.map Member.id then m.requestStop else m).id = m.id := by
    intro m
    split_ifs <;> rfl
  simp only [Pool.update, Pool.publish, without, hpeak, map_change_of_not_mem hlive,
    map_foldr_insertMember hstop, map_change_of_not_mem hdraining,
    map_change_of_mem (f := Member.requestStop) fun m hm => List.mem_map_of_mem hm]

/-- The pool is tidy again after a removal. -/
lemma tidy_without (hr : r.pool.Tidy) (amount : Nat) (mode : Mode) :
    (r.without (takeOldest mode amount r.pool.live).1
      (takeOldest mode amount r.pool.live).2).pool.Tidy where
  sorted := hr.sorted.sublist (sublist_takeOldest mode amount _)
  nodup := by
    have hperm := (perm_foldr_insertMember
      ((takeOldest mode amount r.pool.live).1.map Member.requestStop) r.pool.draining).map Member.id
    have hids : ((takeOldest mode amount r.pool.live).1.map Member.requestStop).map Member.id =
        (takeOldest mode amount r.pool.live).1.map Member.id := by
      rw [List.map_map]
      rfl
    rw [List.map_append, hids] at hperm
    refine ((hperm.append_left _).nodup_iff).2 ?_
    rw [← List.append_assoc]
    exact (List.perm_append_comm.append_right _).nodup_iff.2 (nodup_taken hr amount mode)
  count := rfl
  peak := by
    have hlength := length_left r amount mode
    have hpeak := hr.peak
    show (takeOldest mode amount r.pool.live).2.length ≤ r.pool.peak
    omega

lemma removal_without (hr : r.pool.Tidy) (amount : Nat) (mode : Mode) :
    Removal amount mode (takeOldest mode amount r.pool.live).1 r
      (r.without (takeOldest mode amount r.pool.live).1
        (takeOldest mode amount r.pool.live).2) where
  length := by rw [takeOldest_fst, List.length_take, List.countP_eq_length_filter]
  modes m hm := by
    rw [takeOldest_fst] at hm
    simpa using List.of_mem_filter (List.mem_of_mem_take hm)
  live := perm_takeOldest mode amount r.pool.live
  oldest t ht m hm hmode := lt_of_takeOldest hr.sorted ht hm hmode
  draining := perm_foldr_insertMember _ _
  removed := rfl
  count := by
    rw [hr.count, ← length_left r amount mode, Nat.add_comm]
    rfl
  rest := rfl

/-- Two removals in a row put the draining members in place like one of all of them. -/
lemma without_without (r : Run) {taken taken' left left' : List Member} :
    (r.without taken left).without taken' left' =
      { r with
        removed := r.removed + taken.length + taken'.length
        pool :=
          { r.pool with
            live := left'
            draining :=
              ((taken' ++ taken).map Member.requestStop).foldr insertMember r.pool.draining
            count := left'.length } } := by
  simp [without]

lemma map_requestStop_append_comm {taken taken' : List Member}
    (hnodup : ((taken ++ taken').map Member.id).Nodup) (ms : List Member) :
    ((taken' ++ taken).map Member.requestStop).foldr insertMember ms =
      ((taken ++ taken').map Member.requestStop).foldr insertMember ms := by
  refine (foldr_insertMember_perm (List.perm_append_comm.map _) ?_ ms).symm
  rw [List.map_map]
  exact hnodup

/-- Once the signal has been raised, a removal does nothing. -/
lemma perform_remove_of_raised (hraised : r.isRaised = true) (now : Millis) (amount : Nat)
    (mode : Mode) : (Errand.remove amount mode).perform now r = { run := r } := if_pos hraised

/-- Two removals in one equation. -/
lemma perform_remove_remove (hr : r.pool.Tidy) (hraised : r.isRaised = false) (now : Millis)
    (a b : Nat) (mode mode' : Mode) :
    ((Errand.remove b mode').perform now ((Errand.remove a mode).perform now r).run).run =
      (r.without (takeOldest mode a r.pool.live).1 (takeOldest mode a r.pool.live).2).without
        (takeOldest mode' b (takeOldest mode a r.pool.live).2).1
        (takeOldest mode' b (takeOldest mode a r.pool.live).2).2 := by
  rw [perform_remove hr hraised, perform_remove (tidy_without hr a mode) hraised]
  rfl

/-- The ids of those that two removals take are different ones. -/
lemma nodup_taken_taken (hr : r.pool.Tidy) (a b : Nat) (mode mode' : Mode) :
    (((takeOldest mode a r.pool.live).1 ++
      (takeOldest mode' b (takeOldest mode a r.pool.live).2).1).map Member.id).Nodup := by
  have hperm := perm_takeOldest mode a r.pool.live
  have hperm' := perm_takeOldest mode' b (takeOldest mode a r.pool.live).2
  have hlive : (r.pool.live.map Member.id).Nodup := hr.nodup.of_append_left
  have hall := (((hperm'.append_left _).trans hperm).map Member.id).nodup_iff.2 hlive
  rw [← List.append_assoc, List.map_append] at hall
  exact hall.of_append_left

/-- Removing some and then more at one instant is removing all of them. -/
lemma remove_add (hr : r.pool.Tidy) (a b : Nat) (mode : Mode) (now : Millis) :
    ((Errand.remove b mode).perform now ((Errand.remove a mode).perform now r).run).run =
      ((Errand.remove (a + b) mode).perform now r).run := by
  cases hraised : r.isRaised with
  | true => simp only [perform_remove_of_raised hraised]
  | false =>
    have hnodup := nodup_taken_taken hr a b mode mode
    rw [perform_remove_remove hr hraised, perform_remove hr hraised, takeOldest_add,
      without_without, map_requestStop_append_comm hnodup]
    simp [without, Nat.add_assoc]

/-- Removals of different modes may come in any order. -/
lemma remove_comm (hr : r.pool.Tidy) (hne : mode ≠ mode') (a b : Nat) (now : Millis) :
    ((Errand.remove b mode').perform now ((Errand.remove a mode).perform now r).run).run =
      ((Errand.remove a mode).perform now ((Errand.remove b mode').perform now r).run).run := by
  cases hraised : r.isRaised with
  | true => simp only [perform_remove_of_raised hraised]
  | false =>
    have hnodup := nodup_taken_taken hr a b mode mode'
    have hcomm := takeOldest_comm hne a b r.pool.live
    have hcomm' := takeOldest_comm hne.symm b a r.pool.live
    rw [perform_remove_remove hr hraised, perform_remove_remove hr hraised, without_without,
      without_without, hcomm']
    rw [hcomm] at hnodup ⊢
    rw [map_requestStop_append_comm hnodup, Nat.add_right_comm]

end Run

/-! ### The pools of runs -/

lemma Pool.deregister_of_not_mem {p : Pool} {id : UserId} (h : id ∉ p.ids) :
    p.deregister id = p := by
  rw [Pool.ids, List.mem_append, not_or] at h
  have hlive : ¬ p.isLive id = true := fun hlive => h.1 (Pool.isLive_iff.1 hlive)
  have hdraining : p.draining.filter (·.id != id) = p.draining := by
    refine List.filter_eq_self.2 fun m hm => ?_
    have hne : m.id ≠ id := fun heq => h.2 (heq ▸ List.mem_map_of_mem hm)
    simpa using hne
  rw [Pool.deregister, if_neg hlive, hdraining]

/-- Whatever is done to a run, its pool is one that a history leads to. -/
lemma Run.Dealing.exists_poolHistory {r q : Run} (h : r.Dealing q)
    (hr : ∃ h : PoolHistory, h.Reachable ∧ h.pool = r.pool) :
    ∃ h : PoolHistory, h.Reachable ∧ h.pool = q.pool := by
  obtain ⟨k, hk, hpool⟩ := hr
  cases h with
  | alike h => exact ⟨k, hk, hpool.trans h.pool.symm⟩
  | @arrives ticket hticket mode =>
    have hnew : k.pool.nextId ∉ k.registered := by
      intro hregistered
      exact Nat.lt_irrefl _ (hk.inv.lt _ (hk.inv.registered _ hregistered))
    refine ⟨k.issueId.register { id := k.pool.nextId, mode },
      .tail (.tail hk .issueId) (.register (List.mem_cons_self ..) hnew), ?_⟩
    rw [← hpool]
    rfl
  | leaves id =>
    by_cases hid : id ∈ k.pool.ids
    · obtain ⟨hregistered, hheld⟩ := (hk.inv.mem id).1 hid
      refine ⟨k.release id, hk.tail (.release hregistered hheld), ?_⟩
      rw [← hpool]
      rfl
    · rw [hpool] at hid
      exact ⟨k, hk, hpool.trans (Pool.deregister_of_not_mem hid).symm⟩
  | launches amount => exact ⟨k, hk, hpool⟩
  | counts amount => exact ⟨k, hk, hpool⟩
  | removes amount mode =>
    refine ⟨_, .tail (hk.tail (.take amount mode)) (.requestStop (k.pool.takenIds amount mode)), ?_⟩
    rw [← hpool]
    rfl
  | aborts =>
    refine ⟨k.abortAll, hk.tail .abortAll, ?_⟩
    rw [← hpool]
    rfl
  | letsGo released dropped => exact ⟨k, hk, hpool⟩

/-- The pool of every run of a reachable world is a reachable one. -/
theorem World.Reachable.exists_poolHistory {σ : Type} {w : World σ} (hw : w.Reachable) {i : Nat}
    {r : Run} (hr : w.run? i = some r) : ∃ h : PoolHistory, h.Reachable ∧ h.pool = r.pool := by
  obtain ⟨template, context, hdealings⟩ := hw.exists_dealings hr
  clear hr
  induction hdealings with
  | refl => exact ⟨{}, .refl, rfl⟩
  | tail _ hdealing ih => exact hdealing.exists_poolHistory ih

/-! ### Main results -/

namespace PoolHistory

/-- A removal takes the oldest live users of its mode, as many as it is to take or as there are, and
asks just these to stop. Nothing else of the run changes, apart from the counts: the others stay
live as they are, and those that drained before do so as before. Removals at one instant add up,
those of different modes commute, and once the signal has been raised a removal does nothing at all.
-/
theorem Reachable.removes_oldest {h : PoolHistory} (hh : h.Reachable) {r : Run}
    (hpool : r.pool = h.pool) (now : Millis) (amount : Nat) (mode : Mode) :
    (h.issued.Pairwise (· > ·) ∧ ∀ id ∈ r.pool.ids, id ∈ h.issued) ∧
    (r.isRaised = true → (Errand.remove amount mode).perform now r = { run := r }) ∧
    (r.isRaised = false → ∃ taken acts,
      Run.Removal amount mode taken r ((Errand.remove amount mode).perform now r).run ∧
      (Errand.remove amount mode).perform now r =
        { run := ((Errand.remove amount mode).perform now r).run, acts := .publish :: acts }) ∧
    (∀ more, ((Errand.remove more mode).perform now
        ((Errand.remove amount mode).perform now r).run).run =
      ((Errand.remove (amount + more) mode).perform now r).run) ∧
    ∀ other mode', mode ≠ mode' →
      ((Errand.remove other mode').perform now
          ((Errand.remove amount mode).perform now r).run).run =
        ((Errand.remove amount mode).perform now
          ((Errand.remove other mode').perform now r).run).run := by
  have htidy : r.pool.Tidy := by
    rw [hpool]
    exact hh.tidy
  refine ⟨⟨hh.issued_decreasing, fun id hid => ?_⟩, fun hraised => ?_, fun hraised => ?_,
    fun more => ?_, fun other mode' hne => ?_⟩
  · rw [hpool] at hid
    exact hh.inv.registered id ((hh.inv.mem id).1 hid).1
  · exact Run.perform_remove_of_raised hraised now amount mode
  · refine ⟨(takeOldest mode amount r.pool.live).1,
      ((Errand.remove amount mode).perform now r).acts.tail, ?_, ?_⟩
    · rw [Run.perform_remove htidy hraised]
      exact Run.removal_without htidy amount mode
    · simp only [Errand.perform, hraised, Bool.false_eq_true, if_false]
      rfl
  · exact Run.remove_add htidy amount more mode now
  · exact Run.remove_comm htidy hne amount other now

/-- Three looped users and a cycled one, of which the third one is the first to register. -/
def crew : PoolHistory :=
  ((((({} : PoolHistory).issueId.issueId.issueId.issueId).register
    { id := 2, mode := .looped }).register { id := 0, mode := .looped }).register
    { id := 1, mode := .cycled }).register { id := 3, mode := .looped }

lemma reachable_crew : crew.Reachable := by
  refine .tail (.tail (.tail (.tail (.tail (.tail (.tail (.single .issueId) .issueId) .issueId)
    .issueId) (.register ?_ ?_)) (.register ?_ ?_)) (.register ?_ ?_)) (.register ?_ ?_)
  all_goals decide

/-- The run of the crew. -/
def crewRun : Run := { template := 0, context := { runId := "crew" }, pool := crew.pool }

/-- Two looped users are removed in one go or one after the other: the two oldest ones. -/
theorem removes_oldest_of_crew :
    crewRun.pool = crew.pool ∧ crewRun.isRaised = false ∧
      ((Errand.remove 2 .looped).perform 0 crewRun).run.pool.liveIds = [1, 3] ∧
      (∃ taken, Run.Removal 2 .looped taken crewRun
        ((Errand.remove 2 .looped).perform 0 crewRun).run) ∧
      ((Errand.remove 1 .looped).perform 0
        ((Errand.remove 1 .looped).perform 0 crewRun).run).run =
        ((Errand.remove 2 .looped).perform 0 crewRun).run := by
  obtain ⟨-, -, hremoval, -⟩ := reachable_crew.removes_oldest (r := crewRun) rfl 0 2 .looped
  obtain ⟨-, -, -, hadd, -⟩ := reachable_crew.removes_oldest (r := crewRun) rfl 0 1 .looped
  obtain ⟨taken, -, htaken, -⟩ := hremoval rfl
  exact ⟨rfl, rfl, by decide, ⟨taken, htaken⟩, hadd 1⟩

end PoolHistory

end LoadTest
