import LoadTest.Proofs.Staffing
import LoadTest.Proofs.Stopping

/-!
# The balance of a population

Everyone who has entered a run is live, drains or has ended, and a removal takes nobody twice. The
counts of a run agree with that as soon as no creation is under way. A `History` of a world keeps
the list of those that have ended and of those that removals have taken, run by run.
-/

namespace LoadTest

variable {σ : Type}

/-- Who has left a run, and who was taken by a removal, in either case the last one first. -/
structure Departures where
  ended : List UserId := []
  removed : List UserId := []

/-- The users that have ended without being removed. -/
def Departures.unremoved (d : Departures) : List UserId :=
  d.ended.filter fun id => id ∉ d.removed

/-! ### Pools -/

/-- The users of a pool and those that have left it are those whose ids were handed out. -/
structure Pool.Roll (p : Pool) (d : Departures) : Prop where
  nodup : p.ids.Nodup
  nodup_ended : d.ended.Nodup
  mem_iff : ∀ id, id ∈ p.ids ∨ id ∈ d.ended ↔ id < p.nextId
  apart : ∀ id ∈ d.ended, id ∉ p.ids
  nodup_removed : d.removed.Nodup
  draining : ∀ id ∈ p.drainingIds, id ∈ d.removed
  removed : ∀ id ∈ d.removed, id < p.nextId ∧ id ∉ p.liveIds
  count : p.count = p.live.length
  le_peak : p.live.length ≤ p.peak
  peak_le : p.peak ≤ p.nextId

namespace Pool.Roll

variable {p q : Pool} {d : Departures}

/-- Everyone stays where they are. -/
lemma stay (h : p.Roll d) (hlive : q.liveIds = p.liveIds)
    (hdraining : q.drainingIds = p.drainingIds)
    (hnext : q.nextId = p.nextId) (hcount : q.count = p.count) (hpeak : q.peak = p.peak) :
    q.Roll d := by
  have hids : q.ids = p.ids := by rw [ids, hlive, hdraining, ids]
  have hlength : q.live.length = p.live.length := by
    rw [← length_liveIds, hlive, length_liveIds]
  exact
    { nodup := hids ▸ h.nodup
      nodup_ended := h.nodup_ended
      mem_iff := fun id => by rw [hids, hnext, h.mem_iff]
      apart := fun id hid => hids ▸ h.apart id hid
      nodup_removed := h.nodup_removed
      draining := fun id hid => h.draining id (hdraining ▸ hid)
      removed := fun id hid => by rw [hnext, hlive]; exact h.removed id hid
      count := hcount.trans (h.count.trans hlength.symm)
      le_peak := by rw [hlength, hpeak]; exact h.le_peak
      peak_le := by rw [hpeak, hnext]; exact h.peak_le }

lemma abortAll (h : p.Roll d) : p.abortAll.2.Roll d :=
  h.stay p.liveIds_abortAll p.drainingIds_abortAll rfl rfl rfl

lemma register (h : p.Roll d) (mode : Mode) :
    (p.issueId.2.register { id := p.nextId, mode }).Roll d := by
  have hlive := p.issueId.2.liveIds_register { id := p.nextId, mode }
  have hids := p.issueId.2.ids_register { id := p.nextId, mode }
  have hnew : p.nextId ∉ p.ids := fun hmem =>
    Nat.lt_irrefl _ ((h.mem_iff _).1 (.inl hmem))
  have hlength :
      (p.issueId.2.register { id := p.nextId, mode }).live.length = p.live.length + 1 := by
    rw [← length_liveIds, hlive.length_eq, List.length_cons, length_liveIds]
    rfl
  have hpeak := h.le_peak
  exact
    { nodup := hids.nodup_iff.2 (List.nodup_cons.2 ⟨hnew, h.nodup⟩)
      nodup_ended := h.nodup_ended
      mem_iff := by
        intro id
        show _ ↔ id < p.nextId + 1
        rw [hids.mem_iff, List.mem_cons, or_assoc, Nat.lt_succ_iff_lt_or_eq, ← h.mem_iff]
        exact or_comm
      apart := by
        intro id hid hmem
        rcases List.mem_cons.1 (hids.mem_iff.1 hmem) with rfl | hmem
        · exact Nat.lt_irrefl _ ((h.mem_iff _).1 (.inr hid))
        · exact h.apart id hid hmem
      nodup_removed := h.nodup_removed
      draining := h.draining
      removed := by
        intro id hid
        obtain ⟨hlt, hnot⟩ := h.removed id hid
        refine ⟨Nat.lt_succ_of_lt hlt, fun hmem => ?_⟩
        rcases List.mem_cons.1 (hlive.mem_iff.1 hmem) with rfl | hmem
        · exact Nat.lt_irrefl _ hlt
        · exact hnot hmem
      count := rfl
      le_peak := Nat.le_max_right ..
      peak_le := by
        show max p.peak (p.issueId.2.register { id := p.nextId, mode }).live.length ≤ p.nextId + 1
        have := h.peak_le
        omega }

lemma deregister (h : p.Roll d) {id : UserId} (hid : id ∈ p.ids) :
    (p.deregister id).Roll { d with ended := id :: d.ended } := by
  have hids := ids_deregister h.nodup id
  have hlive := p.liveIds_deregister id
  have hnext := p.nextId_deregister id
  have hlength : (p.deregister id).live.length ≤ p.live.length := by
    rw [← length_liveIds, hlive, ← length_liveIds]
    exact List.length_filter_le ..
  have hpublished : (p.deregister id).count = (p.deregister id).live.length ∧
      (p.deregister id).live.length ≤ (p.deregister id).peak ∧
        (p.deregister id).peak = p.peak := by
    revert hlength
    have hcount := h.count
    have hpeak := h.le_peak
    rw [Pool.deregister]
    split_ifs
    · intro hlength
      have hle := Nat.le_trans hlength hpeak
      exact ⟨rfl, Nat.le_max_right .., Nat.max_eq_left hle⟩
    · exact fun _ => ⟨hcount, hpeak, rfl⟩
  obtain ⟨hcount, hle, hpeak⟩ := hpublished
  exact
    { nodup := hids ▸ h.nodup.filter _
      nodup_ended := List.nodup_cons.2 ⟨fun hmem => h.apart id hmem hid, h.nodup_ended⟩
      mem_iff := by
        intro id'
        rw [hids, hnext, ← h.mem_iff, List.mem_filter, List.mem_cons, bne_iff_ne]
        by_cases heq : id' = id
        · simp [heq, hid]
        · simp [heq]
      apart := by
        intro id' hid' hmem
        obtain ⟨hmem, hne⟩ := List.mem_filter.1 (hids ▸ hmem)
        rcases List.mem_cons.1 hid' with rfl | hid'
        · simp at hne
        · exact h.apart id' hid' hmem
      nodup_removed := h.nodup_removed
      draining := by
        intro id' hid'
        rw [drainingIds_deregister h.nodup] at hid'
        exact h.draining id' (List.mem_of_mem_filter hid')
      removed := by
        intro id' hid'
        obtain ⟨hlt, hnot⟩ := h.removed id' hid'
        exact ⟨hnext ▸ hlt, fun hmem => hnot (List.mem_of_mem_filter (hlive ▸ hmem))⟩
      count := hcount
      le_peak := hle
      peak_le := by rw [hpeak, hnext]; exact h.peak_le }

/-- A removal takes live users only, so nobody a second time. -/
lemma take (h : p.Roll d) (amount : Nat) (mode : Mode) :
    ((p.take amount mode).2.update .requestStop (p.takenIds amount mode)).Roll
      { d with removed := p.takenIds amount mode ++ d.removed } := by
  have hlive := p.liveIds_take amount mode
  have hdraining := p.drainingIds_take amount mode
  have hids := p.ids_take amount mode
  have hnodup : (p.takenIds amount mode ++ (p.take amount mode).2.liveIds).Nodup :=
    hlive.nodup_iff.2 h.nodup.of_append_left
  have htaken : ∀ id ∈ p.takenIds amount mode, id ∈ p.liveIds := fun id hid =>
    hlive.mem_iff.1 (List.mem_append_left _ hid)
  have hlength : (p.take amount mode).2.live.length ≤ p.live.length := by
    have := hlive.length_eq
    rw [List.length_append, length_liveIds, length_liveIds] at this
    omega
  have hpeak := h.le_peak
  refine Roll.stay (p := (p.take amount mode).2) ?_
    (liveIds_update (f := Member.requestStop) (fun _ => rfl) _ _)
    (drainingIds_update (f := Member.requestStop) (fun _ => rfl) _ _) rfl rfl rfl
  exact
    { nodup := hids.nodup_iff.2 h.nodup
      nodup_ended := h.nodup_ended
      mem_iff := fun id => by rw [hids.mem_iff]; exact h.mem_iff id
      apart := fun id hid hmem => h.apart id hid (hids.mem_iff.1 hmem)
      nodup_removed := by
        refine List.nodup_append'.2 ⟨hnodup.of_append_left, h.nodup_removed, ?_⟩
        exact fun id hid hid' => (h.removed id hid').2 (htaken id hid)
      draining := by
        intro id hid
        rcases List.mem_append.1 (hdraining.mem_iff.1 hid) with hid | hid
        · exact List.mem_append_left _ hid
        · exact List.mem_append_right _ (h.draining id hid)
      removed := by
        intro id hid
        rcases List.mem_append.1 hid with hid | hid
        · refine ⟨(h.mem_iff id).1 (.inl (List.mem_append_left _ (htaken id hid))), ?_⟩
          exact fun hmem => List.disjoint_of_nodup_append hnodup hid hmem
        · obtain ⟨hlt, hnot⟩ := h.removed id hid
          exact ⟨hlt, fun hmem => hnot (hlive.mem_iff.1 (List.mem_append_right _ hmem))⟩
      count := rfl
      le_peak := Nat.le_max_right ..
      peak_le := by
        show max p.peak (p.take amount mode).2.live.length ≤ p.nextId
        have := h.peak_le
        omega }

/-! ### Sums -/

lemma length_eq (h : p.Roll d) :
    p.live.length + p.draining.length + d.ended.length = p.nextId := by
  have hperm : (p.ids ++ d.ended).Perm (List.range p.nextId) := by
    refine (List.perm_ext_iff_of_nodup ?_ List.nodup_range).2 fun id => ?_
    · exact List.nodup_append'.2 ⟨h.nodup, h.nodup_ended, fun id hid hid' => h.apart id hid' hid⟩
    · rw [List.mem_append, h.mem_iff, List.mem_range]
  simpa [ids, Nat.add_assoc] using hperm.length_eq

lemma length_live_eq (h : p.Roll d) :
    p.live.length + d.removed.length + d.unremoved.length = p.nextId := by
  have hunremoved : ∀ id, id ∈ d.unremoved ↔ id ∈ d.ended ∧ id ∉ d.removed := by
    simp [Departures.unremoved]
  have hperm : (p.liveIds ++ d.removed ++ d.unremoved).Perm (List.range p.nextId) := by
    refine (List.perm_ext_iff_of_nodup ?_ List.nodup_range).2 fun id => ?_
    · refine List.nodup_append'.2 ⟨List.nodup_append'.2 ⟨h.nodup.of_append_left, h.nodup_removed,
        fun id hid hid' => (h.removed id hid').2 hid⟩, h.nodup_ended.filter _,
      fun id hid hid' => ?_⟩
      obtain ⟨hended, hnot⟩ := (hunremoved id).1 hid'
      rcases List.mem_append.1 hid with hlive | hremoved
      · exact h.apart id hended (List.mem_append_left _ hlive)
      · exact hnot hremoved
    · rw [List.mem_append, List.mem_append, hunremoved, List.mem_range]
      constructor
      · rintro ((hlive | hremoved) | ⟨hended, -⟩)
        · exact (h.mem_iff id).1 (.inl (List.mem_append_left _ hlive))
        · exact (h.removed id hremoved).1
        · exact (h.mem_iff id).1 (.inr hended)
      · intro hlt
        by_cases hremoved : id ∈ d.removed
        · exact .inl (.inr hremoved)
        · rcases (h.mem_iff id).2 hlt with hid | hended
          · rcases List.mem_append.1 hid with hlive | hdraining
            · exact .inl (.inl hlive)
            · exact absurd (h.draining id hdraining) hremoved
          · exact .inr ⟨hended, hremoved⟩
  simpa [Nat.add_assoc] using hperm.length_eq

end Pool.Roll

/-! ### Creations under way -/

/-- The tickets of the users that an operation has launched and not counted. -/
def Operation.uncounted (o : Operation) : List Nat :=
  match o.hold with
  | .arrivals first amount => List.range' first amount
  | _ => []

def Actor.uncounted (i : Nat) : Actor σ → List Nat
  | .operation o => if o.run = i then o.uncounted else []
  | _ => []

/-- The tickets of the users of a run that have been launched and not counted. -/
def uncountedTickets (i : Nat) (as : List (Actor σ)) : List Nat := as.flatMap (Actor.uncounted i)

lemma uncountedTickets_append (i : Nat) (as bs : List (Actor σ)) :
    uncountedTickets i (as ++ bs) = uncountedTickets i as ++ uncountedTickets i bs :=
  List.flatMap_append

lemma Actor.uncounted_of_place {i : Nat} {a : Actor σ} (h : a.place ≠ i) : a.uncounted i = [] := by
  cases a with
  | operation o => exact if_neg h
  | _ => rfl

lemma Operation.uncounted_of_hold {o : Operation} (h : o.hold.isArrivals = false) :
    o.uncounted = [] := by
  rw [uncounted]
  split
  next heq => simp [heq, Hold.isArrivals] at h
  next => rfl

/-- A count comes right after the hold of its creation, and nowhere else. -/
def Operation.CountsArrivals (o : Operation) : Prop :=
  match o.hold with
  | .arrivals _ amount =>
    ∃ mode rest, o.agenda = .count amount mode :: rest ∧ ∀ e ∈ rest, e.isCount = false
  | _ => ∀ e ∈ o.agenda, e.isCount = false

/-- What a run has counted, and what is still to be counted. -/
structure Run.Counted (r : Run) (uncounted : List Nat) : Prop where
  created : r.created + uncounted.length = r.launched
  launched : r.arriving.length + r.pool.nextId = r.launched
  arriving : ∀ t ∈ r.arriving, t ∈ uncounted

namespace Run.Counted

variable {r q : Run} {ts us : List Nat}

lemma stay (h : r.Counted ts) (hperm : us.Perm ts) (hcreated : q.created = r.created)
    (hlaunched : q.launched = r.launched) (harriving : q.arriving = r.arriving)
    (hnext : q.pool.nextId = r.pool.nextId) : q.Counted us where
  created := by rw [hcreated, hlaunched, hperm.length_eq, h.created]
  launched := by rw [harriving, hnext, hlaunched, h.launched]
  arriving t ht := hperm.mem_iff.2 (h.arriving t (harriving ▸ ht))

lemma arrive (h : r.Counted ts) {t : Nat} (ht : t ∈ r.arriving) (mode : Mode) :
    Run.Counted
      { r with
        pool := r.pool.issueId.2.register { id := r.pool.nextId, mode }
        arriving := r.arriving.erase t } ts where
  created := h.created
  launched := by
    show (r.arriving.erase t).length + (r.pool.nextId + 1) = r.launched
    have hpos := List.length_pos_of_mem ht
    have hlaunched := h.launched
    rw [List.length_erase_of_mem ht]
    omega
  arriving t' ht' := h.arriving t' (List.mem_of_mem_erase ht')

lemma launch (h : r.Counted ts) {amount : Nat}
    (hperm : us.Perm (List.range' r.launched amount ++ ts)) : (r.launch amount).2.Counted us where
  created := by
    show r.created + us.length = r.launched + amount
    have hcreated := h.created
    rw [hperm.length_eq, List.length_append, List.length_range']
    omega
  launched := by
    show (r.arriving ++ List.range' r.launched amount).length + r.pool.nextId = r.launched + amount
    have hlaunched := h.launched
    rw [List.length_append, List.length_range']
    omega
  arriving t ht := by
    refine hperm.mem_iff.2 ?_
    rcases List.mem_append.1 ht with ht | ht
    · exact List.mem_append_right _ (h.arriving t ht)
    · exact List.mem_append_left _ ht

/-- Users are counted once they have all arrived. -/
lemma count (h : r.Counted ts) {first amount : Nat}
    (hperm : ts.Perm (List.range' first amount ++ us))
    (harrived : r.haveArrived first amount = true) :
    Run.Counted { r with created := r.created + amount } us where
  created := by
    show r.created + amount + us.length = r.launched
    have hcreated := h.created
    rw [hperm.length_eq, List.length_append, List.length_range'] at hcreated
    omega
  launched := h.launched
  arriving t ht := by
    have hout := List.all_eq_true.1 harrived t ht
    simp only [Bool.or_eq_true, decide_eq_true_eq] at hout
    rcases List.mem_append.1 (hperm.mem_iff.1 (h.arriving t ht)) with hmem | hmem
    · obtain ⟨hle, hlt⟩ := List.mem_range'_1.1 hmem
      omega
    · exact hmem

end Run.Counted

/-! ### Steps of operations -/

/-- The users that an errand takes out of the live ones. -/
def Errand.removals (r : Run) : Errand → List UserId
  | .remove amount mode => if r.isRaised then [] else r.pool.takenIds amount mode
  | _ => []

/-- The users that a step of an operation takes out of the live ones. -/
def Operation.removals (o : Operation) (now : Millis) (r : Run) : List UserId :=
  if o.hold.isOver now r then
    match o.agenda with
    | e :: _ => e.removals r
    | [] => []
  else []

/-- The counts of a run agree with its pool and with who has left it. -/
structure Run.Balanced (r : Run) (uncounted : List Nat) (d : Departures) : Prop where
  roll : r.pool.Roll d
  removed : r.removed = d.removed.length
  counted : r.Counted uncounted

namespace Run.Balanced

variable {r q : Run} {ts us : List Nat} {d : Departures}

/-- The run changes in nothing that is counted. -/
lemma stay (h : r.Balanced ts d) (hperm : us.Perm ts) (hroll : q.pool.Roll d)
    (hnext : q.pool.nextId = r.pool.nextId) (hcreated : q.created = r.created)
    (hremoved : q.removed = r.removed) (hlaunched : q.launched = r.launched)
    (harriving : q.arriving = r.arriving) : q.Balanced us d :=
  ⟨hroll, hremoved.trans h.removed, h.counted.stay hperm hcreated hlaunched harriving hnext⟩

lemma of_perm (h : r.Balanced ts d) (hperm : us.Perm ts) : r.Balanced us d :=
  h.stay hperm h.roll rfl rfl rfl rfl rfl

lemma alike (h : r.Balanced ts d) (hq : r.Alike q) : q.Balanced ts d := by
  obtain ⟨-, shared, rfl⟩ := hq
  exact h.stay (.refl _) h.roll rfl rfl rfl rfl rfl

lemma abortAll (h : r.Balanced ts d) : Run.Balanced { r with pool := r.pool.abortAll.2 } ts d :=
  h.stay (.refl _) h.roll.abortAll rfl rfl rfl rfl rfl

lemma freed (h : r.Balanced ts d) (hq : r.Freed q) : q.Balanced ts d := by
  rcases hq with rfl | ⟨pool, rfl | rfl, rfl⟩
  · exact h
  · exact h.stay (.refl _) h.roll rfl rfl rfl rfl rfl
  · exact h.stay (.refl _) h.roll.abortAll rfl rfl rfl rfl rfl

/-- An errand that is no creation and no count. -/
lemma performed {e : Errand} {result : Errand.Result} (h : r.Balanced ts d)
    (hresult : e.Performed r result) (hcreate : result.hold.isArrivals = false)
    (hcount : e.isCount = false) :
    result.run.Balanced ts { d with removed := e.removals r ++ d.removed } := by
  cases hresult with
  | create hraised hrun hnext hhold hacts houtcome => simp [hhold, Hold.isArrivals] at hcreate
  | count hrun hnext hhold hacts houtcome => cases hcount
  | @remove amount mode _ hraised hrun hnext hhold hacts houtcome =>
    rw [hrun, Errand.removals, if_neg (by simp [hraised])]
    refine ⟨h.roll.take amount mode, ?_, h.counted.stay (.refl _) rfl rfl rfl rfl⟩
    show r.removed + _ = _
    rw [List.length_append, h.removed, Nat.add_comm]
  | abort hrun hnext hhold hacts houtcome => exact hrun ▸ h.abortAll
  | raise hrun hnext hhold hacts => exact hrun ▸ h.alike (.raise r)
  | idle hcount hrun hnext hhold hacts hremove =>
    have hnone : e.removals r = [] := by
      cases e with
      | remove amount mode => exact if_pos (hremove amount mode rfl)
      | _ => rfl
    rw [hnone, hrun]
    exact h

end Run.Balanced

lemma Hold.eq_of_isArrivals {h : Hold} (harrivals : h.isArrivals = true) :
    ∃ first amount, h = .arrivals first amount := by
  cases h with
  | arrivals first amount => exact ⟨first, amount, rfl⟩
  | _ => exact nomatch harrivals

lemma Operation.CountsArrivals.of_hold {o : Operation} (h : o.CountsArrivals)
    (hhold : o.hold.isArrivals = false) : ∀ e ∈ o.agenda, e.isCount = false := by
  rw [CountsArrivals] at h
  split at h
  next heq => simp [heq, Hold.isArrivals] at hhold
  next => exact h

lemma Operation.countsArrivals_of_hold {o : Operation} (hhold : o.hold.isArrivals = false)
    (hagenda : ∀ e ∈ o.agenda, e.isCount = false) : o.CountsArrivals := by
  rw [CountsArrivals]
  split
  next heq => simp [heq, Hold.isArrivals] at hhold
  next => exact hagenda

/-- An operation that performs an errand counts the users that it has awaited, or else has not
awaited any. -/
lemma Operation.CountsArrivals.cases {o : Operation} (h : o.CountsArrivals) {e : Errand}
    {rest : List Errand} (hagenda : o.agenda = e :: rest) :
    (∀ e' ∈ rest, e'.isCount = false) ∧
      ((o.hold.isArrivals = false ∧ e.isCount = false) ∨
        ∃ first amount mode, o.hold = .arrivals first amount ∧ e = .count amount mode) := by
  cases hhold : o.hold.isArrivals with
  | false =>
    have hall := h.of_hold hhold
    rw [hagenda] at hall
    exact ⟨fun e' he' => hall e' (List.mem_cons_of_mem _ he'),
      .inl ⟨rfl, hall e (List.mem_cons_self ..)⟩⟩
  | true =>
    obtain ⟨first, amount, hhold⟩ := Hold.eq_of_isArrivals hhold
    rw [CountsArrivals, hhold] at h
    obtain ⟨mode, rest', heq, hrest⟩ := h
    rw [hagenda] at heq
    cases heq
    exact ⟨hrest, .inr ⟨first, amount, mode, hhold, rfl⟩⟩

/-- A step of an operation leaves a count only with the hold of its creation. -/
lemma Operation.CountsArrivals.step {o : Operation} (h : o.CountsArrivals) (now : Millis)
    (r : Run) :
    (o.step now r).2.1.CountsArrivals := by
  have hstepped := o.stepped now r
  generalize o.step now r = next at hstepped
  cases hstepped with
  | givesUp hhold => exact Operation.countsArrivals_of_hold rfl (by simp)
  | ends hhold hagenda => exact Operation.countsArrivals_of_hold rfl (by simp [hagenda])
  | @performs e rest o' hhold hagenda hgoes hends =>
    obtain ⟨hrest, hcases⟩ := h.cases hagenda
    cases houtcome : (e.perform now r).outcome with
    | some outcome =>
      rw [hends outcome houtcome]
      exact Operation.countsArrivals_of_hold rfl (by simp)
    | none =>
      rw [hgoes houtcome]
      -- A creation is followed by its count, and nothing else leaves one.
      have hresult := Errand.performed now r e
      have hnone : (e.perform now r).hold.isArrivals = false →
          (∀ e' ∈ (e.perform now r).next, e'.isCount = false) → Operation.CountsArrivals
            { o with
              agenda := (e.perform now r).next ++ rest
              hold := (e.perform now r).hold } := by
        intro hcreate hnext
        refine Operation.countsArrivals_of_hold hcreate fun e' he' => ?_
        rcases List.mem_append.1 he' with he' | he'
        · exact hnext e' he'
        · exact hrest e' he'
      cases hresult with
      | create hraised hrun hnext hhold' =>
        rw [hnext, hhold']
        exact ⟨_, rest, rfl, hrest⟩
      | count hrun hnext hhold' => exact hnone (by rw [hhold']; rfl) (by simp [hnext])
      | remove hraised hrun hnext hhold' => exact hnone (by rw [hhold']; rfl) (by simp [hnext])
      | abort hrun hnext hhold' => exact hnone (by rw [hhold']; rfl) (by simp [hnext])
      | raise hrun hnext hhold' => exact hnone (by rw [hhold']; rfl) (by simp [hnext])
      | idle hcount hrun hnext hhold' => exact hnone hhold' hnext

/-- A step of an operation that is not given up while it awaits users keeps the balance. -/
theorem Run.Balanced.stepped {r : Run} {o : Operation} {now : Millis} {us : List Nat}
    {d : Departures} (h : r.Balanced (o.uncounted ++ us) d) (hcounts : o.CountsArrivals)
    (hawaited : o.hold.isArrivals = true → o.hold.isOver now r = true) :
    (o.step now r).1.Balanced ((o.step now r).2.1.uncounted ++ us)
      { d with removed := o.removals now r ++ d.removed } := by
  have hstepped := o.stepped now r
  generalize o.step now r = next at hstepped
  cases hstepped with
  | givesUp hhold =>
    have hnot : o.hold.isArrivals = false := by
      cases harrivals : o.hold.isArrivals with
      | false => rfl
      | true => exact nomatch hhold.symm.trans (hawaited harrivals)
    rw [Operation.uncounted_of_hold hnot] at h
    rw [Operation.removals, hhold, if_neg Bool.false_ne_true]
    exact h
  | ends hhold hagenda =>
    have hnot : o.hold.isArrivals = false := by
      cases harrivals : o.hold.isArrivals with
      | false => rfl
      | true =>
        obtain ⟨first, amount, heq⟩ := Hold.eq_of_isArrivals harrivals
        rw [Operation.CountsArrivals, heq] at hcounts
        obtain ⟨mode, rest, heq, -⟩ := hcounts
        exact nomatch hagenda.symm.trans heq
    rw [Operation.uncounted_of_hold hnot] at h
    rw [Operation.removals, hagenda, ite_self]
    exact h
  | @performs e rest o' hhold hagenda hgoes hends =>
    have hresult := Errand.performed now r e
    have hremovals : o.removals now r = e.removals r := by
      rw [Operation.removals, if_pos hhold, hagenda]
    rw [hremovals]
    rcases (hcounts.cases hagenda).2 with ⟨hnot, hcount⟩ | ⟨first, amount, mode, harrivals, rfl⟩
    · rw [Operation.uncounted_of_hold hnot] at h
      cases hcreate : (e.perform now r).hold.isArrivals with
      | false =>
        have huncounted : o'.uncounted = [] := by
          refine Operation.uncounted_of_hold ?_
          cases houtcome : (e.perform now r).outcome with
          | some outcome =>
            rw [hends outcome houtcome]
            rfl
          | none => rw [hgoes houtcome, hcreate]
        rw [huncounted]
        exact h.performed hresult hcreate hcount
      | true =>
        cases hresult with
        | create hraised hrun hnext hhold hacts houtcome =>
          rw [hgoes houtcome, hrun, hnext, hhold]
          exact ⟨h.roll, h.removed, h.counted.launch (.refl _)⟩
        | count hrun hnext hhold => simp [hhold, Hold.isArrivals] at hcreate
        | remove hraised hrun hnext hhold => simp [hhold, Hold.isArrivals] at hcreate
        | abort hrun hnext hhold => simp [hhold, Hold.isArrivals] at hcreate
        | raise hrun hnext hhold => simp [hhold, Hold.isArrivals] at hcreate
        | idle hcount hrun hnext hhold => exact nomatch hhold.symm.trans hcreate
    · cases hresult with
      | count hrun hnext hhold' hacts houtcome =>
        have huncounted : o.uncounted = List.range' first amount := by
          rw [Operation.uncounted, harrivals]
        rw [harrivals] at hhold
        rw [hgoes houtcome, hrun, hnext, hhold']
        refine ⟨h.roll, h.removed, ?_⟩
        exact h.counted.count (.of_eq (by rw [huncounted]; rfl)) hhold
      | idle hcount => cases hcount

/-! ### Turns -/

namespace World

variable {w v : World σ} {i : Nat} {r : Run} {d : Nat → Departures}

/-- The users of the run at a place whose task ends by the turn of an actor. -/
def endings (w : World σ) (i : Nat) : Actor σ → List UserId
  | .user j u => if j = i ∧ (w.run? i).any (fun r => (w.stepUser r u).isEnded) then [u.id] else []
  | _ => []

/-- The users that the turn of an actor takes out of the live ones of the run at a place. -/
def removals (w : World σ) (i : Nat) : Actor σ → List UserId
  | .operation o => if o.run = i then ((w.run? i).map (o.removals w.now)).getD [] else []
  | _ => []

/-- Write down who leaves by the turn of an actor. -/
def note (w : World σ) (a : Actor σ) (d : Nat → Departures) (i : Nat) : Departures where
  ended := w.endings i a ++ (d i).ended
  removed := w.removals i a ++ (d i).removed

lemma note_of_place {a : Actor σ} (h : a.place ≠ i) : w.note a d i = d i := by
  cases a with
  | user j u => simp [note, endings, removals, show j ≠ i from h]
  | operation o => simp [note, endings, removals, show o.run ≠ i from h]
  | _ => rfl

/-- The runs of a world are balanced, and its operations count whom they have launched. -/
structure Balanced (w : World σ) (d : Nat → Departures) : Prop where
  run : ∀ i r, w.run? i = some r → r.Balanced (uncountedTickets i w.actors) (d i)
  nobody : ∀ i, w.run? i = none → d i = {}
  counts : ∀ o, .operation o ∈ w.actors → o.CountsArrivals

/-- No operation that has launched users gives up on them. -/
def Awaits (w : World σ) (a : Actor σ) : Prop :=
  ∀ o r, a = .operation o → w.run? o.run = some r → o.hold.isArrivals = true →
    o.hold.isOver w.now r = true

lemma uncountedTickets_newcomers (w : World σ) (i j : Nat) (r : Run) (acts : List Act) :
    uncountedTickets j (w.newcomers i r acts) = [] := by
  refine List.flatMap_eq_nil_iff.2 fun a ha => ?_
  obtain ⟨t, ticket, lifecycle, -, -, rfl⟩ := mem_newcomers ha
  rfl

lemma not_operation_of_newcomers {acts : List Act} {o : Operation} :
    .operation o ∉ w.newcomers i r acts := by
  intro ho
  obtain ⟨t, ticket, lifecycle, -, -, heq⟩ := mem_newcomers ho
  cases heq

/-- What a turn leaves of the run and the operations that it is about. -/
structure Settles (v : World σ) (a : Actor σ) (others : List (Actor σ)) (d : Departures) :
    Prop where
  run : ∃ q, v.run? a.place = some q ∧ q.Balanced (uncountedTickets a.place v.actors) d
  counts : ∀ o, .operation o ∈ v.actors → .operation o ∈ others ∨ o.CountsArrivals

/-- Whoever is left of a turn is no operation. -/
lemma Settles.of_perm {a : Actor σ} {others : List (Actor σ)} (bs : List (Actor σ)) {q : Run}
    {d : Departures} (hrun : v.run? a.place = some q) (hactors : v.actors.Perm (bs ++ others))
    (hbs : ∀ o, .operation o ∉ bs) (hq : q.Balanced (uncountedTickets a.place others) d) :
    Settles v a others d where
  run := by
    have hnone : uncountedTickets a.place bs = [] := by
      refine List.flatMap_eq_nil_iff.2 fun b hb => ?_
      cases b with
      | operation o => exact absurd hb (hbs o)
      | _ => rfl
    refine ⟨q, hrun, hq.of_perm ((hactors.flatMap_right _).trans (.of_eq ?_))⟩
    show uncountedTickets a.place (bs ++ others) = _
    rw [uncountedTickets_append, hnone, List.nil_append]
  counts := by
    intro o ho
    exact (List.mem_append.1 (hactors.mem_iff.1 ho)).elim (fun h => absurd h (hbs o)) .inl

lemma settles_user {u : User σ} {others : List (Actor σ)} (hr : w.run? i = some r)
    (hended : u.isEnded = false) (hstaffed : r.Staffed i (.user i u :: others))
    (hb : r.Balanced (uncountedTickets i others) (d i)) :
    Settles (w.turn (.user i u) others) (.user i u) others (w.note (.user i u) d i) := by
  have hnote : w.note (.user i u) d i =
      ⟨(if (w.stepUser r u).isEnded then [u.id] else []) ++ (d i).ended, (d i).removed⟩ := by
    simp [note, endings, removals, hr]
  rw [hnote]
  cases hlaunched : u.isLaunched with
  | true =>
    obtain ⟨hrun, hactors⟩ := turn_launched others hr hlaunched
    have hstep : (w.stepUser r u).isEnded = false := by
      rw [stepUser, (User.step_of_launched (User.phase_of_isLaunched hlaunched)).1]
      rfl
    have hticket : u.ticket ∈ r.arriving := by
      refine hstaffed.awaited.mem_iff.1 (List.mem_filterMap.2 ⟨_, List.mem_cons_self .., ?_⟩)
      exact if_pos ⟨rfl, hlaunched⟩
    rw [hstep, if_neg Bool.false_ne_true]
    refine .of_perm [_] hrun (.of_eq hactors) (by simp) ?_
    exact ⟨hb.roll.register u.lifecycle.mode, hb.removed, hb.counted.arrive hticket _⟩
  | false =>
    cases hends : (w.stepUser r u).isEnded with
    | true =>
      obtain ⟨q, hrun, hq, -, hactors⟩ := turn_ends others hr hlaunched hended hends
      obtain ⟨-, shared, rfl⟩ := hq
      have hid : u.id ∈ r.pool.ids := by
        refine hstaffed.enrolled.mem_iff.1 (List.mem_filterMap.2 ⟨_, List.mem_cons_self .., ?_⟩)
        exact if_pos ⟨rfl, User.isEnrolled_iff.2 ⟨hlaunched, hended⟩⟩
      have hnext := r.pool.nextId_deregister u.id
      rw [if_pos rfl]
      refine .of_perm [] hrun (.of_eq hactors) (by simp) ?_
      exact ⟨hb.roll.deregister hid, hb.removed, hb.counted.stay (.refl _) rfl rfl rfl hnext⟩
    | false =>
      obtain ⟨q, hrun, hq, -, hactors⟩ := turn_goesOn others hr hlaunched hended hends
      rw [if_neg Bool.false_ne_true]
      refine .of_perm [.user i (w.stepUser r u)] hrun ?_ (by simp) (hb.alike hq)
      rw [hactors]
      split_ifs
      · exact List.perm_append_singleton _ _
      · exact .refl _

lemma settles_operation {o : Operation} {others : List (Actor σ)} (hr : w.run? o.run = some r)
    (hawaits : w.Awaits (.operation o)) (hcounts : o.CountsArrivals)
    (hb : r.Balanced (o.uncounted ++ uncountedTickets o.run others) (d o.run)) :
    Settles (w.turn (.operation o) others) (.operation o) others
      (w.note (.operation o) d o.run) := by
  have hnote : w.note (.operation o) d o.run =
      ⟨(d o.run).ended, o.removals w.now r ++ (d o.run).removed⟩ := by
    simp [note, endings, removals, hr]
  rw [hnote]
  have hq := hb.stepped hcounts (hawaits o r rfl hr)
  have hcounts' := hcounts.step w.now r
  have hrun := (o.later_step w.now r).2.2
  have hnone : .operation o ∉ w.newcomers o.run (o.step w.now r).1 (o.step w.now r).2.2 :=
    not_operation_of_newcomers
  cases hended : (o.step w.now r).2.1.isEnded with
  | true =>
    obtain ⟨q, hq', hfreed, hactors, -⟩ := turn_operation_ends others hr hended
    have hover : (o.step w.now r).2.1.uncounted = [] := by
      refine Operation.uncounted_of_hold ?_
      simp only [Operation.isEnded, Bool.and_eq_true, beq_iff_eq] at hended
      rw [hended.2]
      rfl
    constructor
    case run =>
      refine ⟨q, hq', ((hover ▸ hq).freed hfreed).of_perm (.of_eq ?_)⟩
      rw [hactors, uncountedTickets_append, uncountedTickets_newcomers]
      exact List.append_nil _
    case counts =>
      intro o' ho'
      rw [hactors] at ho'
      exact (List.mem_append.1 ho').imp_right fun h => absurd h not_operation_of_newcomers
  | false =>
    obtain ⟨hq', -, -⟩ := turn_operation_goesOn others hr hended
    have hself : (Actor.operation (o.step w.now r).2.1 : Actor σ).uncounted o.run =
        (o.step w.now r).2.1.uncounted := if_pos hrun
    have hperm := perm_turn_operation others hr hended
    constructor
    case run =>
      refine ⟨_, hq', hq.of_perm ((hperm.flatMap_right _).trans (.of_eq ?_))⟩
      show (Actor.operation _ : Actor σ).uncounted o.run ++ uncountedTickets o.run _ = _
      rw [hself, uncountedTickets_append, uncountedTickets_newcomers, List.append_nil]
    case counts =>
      intro o' ho'
      rcases List.mem_cons.1 (hperm.mem_iff.1 ho') with heq | ho'
      · cases heq
        exact .inr hcounts'
      · exact (List.mem_append.1 ho').imp_right fun h => absurd h not_operation_of_newcomers

lemma settles_watch {tick : Millis} {others : List (Actor σ)} (hr : w.run? i = some r)
    (hb : r.Balanced (uncountedTickets i others) (d i)) :
    Settles (w.turn (.watch i tick) others) (.watch i tick) others (d i) := by
  cases hdropped : r.dropped with
  | true =>
    obtain ⟨hrun, hactors⟩ := turn_watch_dropped tick others hr hdropped
    exact .of_perm [] hrun (.of_eq hactors) (by simp) hb
  | false =>
    cases hraised : r.isRaised with
    | true =>
      obtain ⟨hrun, hactors⟩ := turn_watch_raised tick others hr hdropped hraised
      exact .of_perm [] hrun (.of_eq hactors) (by simp) hb.abortAll
    | false =>
      obtain ⟨hrun, hactors⟩ := turn_watch_waits tick others hr hdropped hraised
      refine .of_perm [.watch i (tick + r.watchPeriod)] hrun ?_ (by simp) hb
      exact hactors ▸ List.perm_append_singleton _ _

lemma settles_alarm {due : Millis} {others : List (Actor σ)} (hr : w.run? i = some r)
    (hb : r.Balanced (uncountedTickets i others) (d i)) :
    Settles (w.turn (.alarm i due) others) (.alarm i due) others (d i) := by
  obtain ⟨hrun, hactors⟩ := turn_alarm due others hr
  exact .of_perm [] hrun (.of_eq hactors) (by simp) (hb.alike (.raise r))

/-- Turns keep the balance, unless users are given up that are to arrive. -/
theorem Balanced.turn (hb : w.Balanced d) (hw : w.Staffed) {a : Actor σ}
    {others : List (Actor σ)} (hactors : w.actors.Perm (a :: others)) (hawaits : w.Awaits a) :
    (w.turn a others).Balanced (w.note a d) := by
  have ha : a ∈ w.actors := hactors.mem_iff.2 (List.mem_cons_self ..)
  obtain ⟨hover, hplace⟩ := hw.placed a ha
  obtain ⟨r, hr⟩ := Option.isSome_iff_exists.1 hplace
  obtain ⟨new, q, hturn⟩ := hw.replaces hactors hr
  have hstaffed := (hw.run _ r hr).of_perm hactors.symm
  have hown : r.Balanced (a.uncounted a.place ++ uncountedTickets a.place others) (d a.place) :=
    (hb.run _ r hr).of_perm (hactors.symm.flatMap_right _)
  have hsettles : Settles (w.turn a others) a others (w.note a d a.place) := by
    cases a with
    | user i u => exact settles_user hr hover hstaffed hown
    | operation o =>
      refine settles_operation hr hawaits (hb.counts o ha) (hown.of_perm (.of_eq ?_))
      exact congrArg (· ++ _) (if_pos rfl).symm
    | watch i tick => exact settles_watch hr hown
    | alarm i due => exact settles_alarm hr hown
  constructor
  case run =>
    intro j t ht
    by_cases hj : j = a.place
    · obtain ⟨q, hq, hbalanced⟩ := hsettles.run
      rw [hj, hq] at ht
      cases ht
      rw [hj]
      exact hbalanced
    · -- Only actors of the other run have changed.
      rw [hturn.apart.others j hj] at ht
      rw [note_of_place (Ne.symm hj)]
      refine (hb.run j t ht).of_perm ?_
      have hnew : uncountedTickets j new = [] := List.flatMap_eq_nil_iff.2 fun b hb =>
        Actor.uncounted_of_place ((hturn.place b hb).1 ▸ Ne.symm hj)
      refine (hturn.actors.flatMap_right _).trans (List.Perm.trans (.of_eq ?_)
        (hactors.symm.flatMap_right _))
      show uncountedTickets j (new ++ others) = a.uncounted j ++ uncountedTickets j others
      rw [uncountedTickets_append, hnew, Actor.uncounted_of_place (Ne.symm hj)]
  case nobody =>
    intro j hj
    have hne : a.place ≠ j := by
      rintro rfl
      exact nomatch hturn.run.symm.trans hj
    rw [note_of_place hne]
    exact hb.nobody j (hturn.apart.others j (Ne.symm hne) ▸ hj)
  case counts =>
    intro o ho
    rcases hsettles.counts o ho with ho | ho
    · exact hb.counts o (hactors.mem_iff.2 (List.mem_cons_of_mem _ ho))
    · exact ho

/-! ### Histories -/

/-- The worlds that a world without runs comes to if creations are awaited to their end, and who has
left which run on the way. -/
inductive History : World σ → (Nat → Departures) → Prop
  | empty {w : World σ} (hruns : w.runs = []) (hactors : w.actors = []) : History w fun _ => {}
  | turn {w : World σ} {d : Nat → Departures} (h : History w d) {a : Actor σ}
      {before after : List (Actor σ)} (hactors : w.actors = before ++ a :: after)
      (hready : w.isReady a = true) (hawaits : w.Awaits a) :
      History (w.turn a (before ++ after)) (w.note a d)
  | wait {w : World σ} {d : Nat → Departures} (h : History w d) {now : Millis}
      (hnow : w.now ≤ now) : History { w with now } d
  | call {w v : World σ} {d : Nat → Departures} (h : History w d) (hcall : Call w v) : History v d

theorem History.reachable (h : History w d) : w.Reachable := by
  induction h with
  | empty hruns hactors => exact .empty hruns hactors
  | turn _ hactors hready _ ih => exact .step ih (.turn hactors hready)
  | wait _ hnow ih => exact .step ih (.wait hnow)
  | call _ hcall ih => exact .call ih hcall

/-- A run may be changed from outside as long as its balance is kept. -/
lemma Balanced.change (hb : w.Balanced d) {q : Run} (hr : w.run? i = some r)
    (hv : v.run? i = some q) (hapart : Apart i w v) (hactors : v.actors = w.actors)
    (hq : r.Balanced (uncountedTickets i w.actors) (d i) →
      q.Balanced (uncountedTickets i w.actors) (d i)) : v.Balanced d where
  run := by
    intro j t ht
    rw [hactors]
    by_cases hj : j = i
    · rw [hj, hv] at ht
      cases ht
      rw [hj]
      exact hq (hb.run i r hr)
    · exact hb.run j t (hapart.others j hj ▸ ht)
  nobody := by
    intro j hj
    have hne : j ≠ i := by
      rintro rfl
      exact nomatch hv.symm.trans hj
    exact hb.nobody j (hapart.others j hne ▸ hj)
  counts o ho := hb.counts o (hactors ▸ ho)

/-- Someone may join who has not launched anyone. -/
lemma Balanced.join (hb : w.Balanced d) {a : Actor σ} (hruns : v.runs = w.runs)
    (hactors : v.actors.Perm (a :: w.actors)) (huncounted : ∀ j, a.uncounted j = [])
    (hcounts : ∀ o, a = .operation o → o.CountsArrivals) : v.Balanced d where
  run := by
    intro j t ht
    rw [run?, hruns] at ht
    refine (hb.run j t ht).of_perm ((hactors.flatMap_right _).trans (.of_eq ?_))
    show a.uncounted j ++ uncountedTickets j w.actors = _
    rw [huncounted, List.nil_append]
  nobody j hj := hb.nobody j (by rwa [run?, hruns] at hj)
  counts o ho := (List.mem_cons.1 (hactors.mem_iff.1 ho)).elim (hcounts o ·.symm) (hb.counts o)

lemma Balanced.openRun (hb : w.Balanced d) (hw : w.Staffed) (template : Nat)
    (context : RunContext) : (w.openRun template context).2.Balanced d := by
  have huncounted : ∀ j, uncountedTickets j (w.openRun template context).2.actors =
      uncountedTickets j w.actors := fun j =>
    (uncountedTickets_append j w.actors [.watch w.runs.length w.now]).trans (List.append_nil _)
  constructor
  case run =>
    intro j t ht
    rw [huncounted]
    rw [run?_openRun] at ht
    split_ifs at ht with hj
    · cases ht
      have hnone : uncountedTickets j w.actors = [] := by
        refine List.flatMap_eq_nil_iff.2 fun a ha => Actor.uncounted_of_place fun heq => ?_
        have hsome := (hw.placed a ha).2
        rw [heq, hj, run?_length] at hsome
        cases hsome
      rw [hnone, hb.nobody j (hj ▸ w.run?_length)]
      exact
        { roll :=
            { nodup := List.nodup_nil
              nodup_ended := List.nodup_nil
              mem_iff := by simp [Pool.ids, Pool.liveIds, Pool.drainingIds]
              apart := by simp
              nodup_removed := List.nodup_nil
              draining := by simp [Pool.drainingIds]
              removed := by simp
              count := rfl
              le_peak := Nat.le_refl 0
              peak_le := Nat.le_refl 0 }
          removed := rfl
          counted := ⟨rfl, rfl, by simp⟩ }
    · exact hb.run j t ht
  case nobody =>
    intro j hj
    rw [run?_openRun] at hj
    split_ifs at hj
    exact hb.nobody j hj
  case counts =>
    intro o ho
    refine hb.counts o ((List.mem_append.1 ho).resolve_right ?_)
    simp

/-- So does whatever is asked from outside. -/
theorem Balanced.call (hb : w.Balanced d) (hw : w.Staffed) (hcall : Call w v) : v.Balanced d := by
  cases hcall with
  | cast b =>
    rw [cast]
    split
    next => exact hb
    next => exact ⟨hb.run, hb.nobody, hb.counts⟩
  | openRun context htemplate => exact hb.openRun hw _ context
  | submit horizon hrun hagenda =>
    refine hb.join rfl (List.perm_append_singleton _ _) (fun j => ite_self _) ?_
    rintro o ⟨⟩
    exact Operation.countsArrivals_of_hold rfl hagenda
  | raise i =>
    cases hr : w.run? i with
    | none => rwa [raise, hr]
    | some r =>
      have hv : (w.raise i).2.run? i = some r.raise.2 := by
        rw [raise_eq hr]
        exact run?_setRun_self hr
      exact hb.change hr hv (w.apart_raise i) (w.keeps_raise i).actors fun h => h.alike (.raise r)
  | raiseAt due hrun => exact hb.join rfl (.refl _) (fun j => rfl) (by simp)
  | abort i =>
    cases hr : w.run? i with
    | none => rwa [abort, hr]
    | some r =>
      have hv : (w.abort i).run? i = some { r with pool := r.pool.abortAll.2 } := by
        rw [abort_eq hr]
        exact run?_setRun_self hr
      exact hb.change hr hv (w.apart_abort i) (w.keeps_abort i).actors fun h => h.abortAll
  | release i =>
    cases hr : w.run? i with
    | none => rwa [release, hr]
    | some r =>
      obtain ⟨q, hq, hfreed⟩ := run?_dropIfFree
        (run?_setRun_self (q := { r with released := true }) hr)
      have hv : (w.release i).run? i = some q := by
        rw [release, hr]
        exact hq
      refine hb.change hr hv (w.apart_release i) (w.keeps_release i).actors fun h => ?_
      exact Run.Balanced.freed (r := { r with released := true })
        (h.stay (.refl _) h.roll rfl rfl rfl rfl rfl) hfreed
  | log m => exact ⟨hb.run, hb.nobody, hb.counts⟩

theorem History.balanced (h : History w d) : w.Balanced d := by
  induction h with
  | @empty w hruns hactors =>
    have hrun : ∀ i, w.run? i = none := fun i => by simp [run?, hruns]
    refine ⟨fun i r hr => ?_, fun _ _ => rfl, fun o ho => ?_⟩
    · exact absurd ((hrun i).symm.trans hr) (by simp)
    · exact absurd (hactors ▸ ho) List.not_mem_nil
  | turn h hactors hready hawaits ih =>
    exact ih.turn h.reachable.staffed (hactors ▸ List.perm_middle) hawaits
  | wait _ hnow ih => exact ⟨ih.run, ih.nobody, ih.counts⟩
  | call h hcall ih => exact ih.call h.reachable.staffed hcall

/-- As soon as no creation is under way, everyone who was created is live, drains or has ended, the
removed users are as many as were ever taken, each of them once, and those that have been created
and neither removed nor ended by themselves are the live ones. At most so many have been live at a
time as have been created. -/
theorem History.balance (h : History w d) (hr : w.run? i = some r)
    (hcreated : ∀ o, .operation o ∈ w.actors → o.run = i → o.hold.isArrivals = false)
    (elapsed : Millis) :
    (r.statistics elapsed).created =
        r.pool.live.length + r.pool.draining.length + (d i).ended.length ∧
      (d i).ended.Nodup ∧ (r.statistics elapsed).removed = (d i).removed.length ∧
      (d i).removed.Nodup ∧
      (r.statistics elapsed).removed ≤ (r.statistics elapsed).created ∧
      r.pool.live.length + (r.statistics elapsed).removed + (d i).unremoved.length =
        (r.statistics elapsed).created ∧
      r.pool.count = r.pool.live.length ∧
      r.pool.live.length ≤ (r.statistics elapsed).peak ∧
      (r.statistics elapsed).peak ≤ (r.statistics elapsed).created := by
  have hb := h.balanced.run i r hr
  have hnone : uncountedTickets i w.actors = [] := by
    refine List.flatMap_eq_nil_iff.2 fun a ha => ?_
    cases a with
    | operation o =>
      refine ite_eq_right_iff.2 fun hrun => ?_
      exact Operation.uncounted_of_hold (hcreated o ha hrun)
    | _ => rfl
  have hcounted := hb.counted
  rw [hnone] at hcounted
  have harrived : r.arriving = [] := List.eq_nil_iff_forall_not_mem.2 fun t ht =>
    List.not_mem_nil (hcounted.arriving t ht)
  have hlaunched := hcounted.launched
  rw [harrived] at hlaunched
  have hissued : r.created = r.pool.nextId := by
    have := hcounted.created
    simp only [List.length_nil, Nat.add_zero, Nat.zero_add] at this hlaunched
    omega
  have hlength := hb.roll.length_eq
  have hlive := hb.roll.length_live_eq
  have hremoved := hb.removed
  simp only [Run.statistics]
  refine ⟨by omega, hb.roll.nodup_ended, hremoved, hb.roll.nodup_removed, by omega, by omega,
    hb.roll.count,
    hb.roll.le_peak, ?_⟩
  rw [hissued]
  exact hb.roll.peak_le

/-! A run of naps in which a user ends by itself and another one is removed. -/

/-- Does no operation under way have a limit? -/
def isUnlimited (w : World σ) : Bool :=
  w.actors.all fun
    | .operation o => o.limit.isNone
    | _ => true

/-- Operations without limits do not give up. -/
lemma awaits_of_isUnlimited (h : w.isUnlimited = true) {a : Actor σ} (ha : a ∈ w.actors)
    (hready : w.isReady a = true) : w.Awaits a := by
  rintro o r rfl hr -
  have hlimit : o.limit = none := by simpa using List.all_eq_true.1 h _ ha
  simpa [isReady, hr, Operation.isReady, Operation.isLate, hlimit] using hready

lemma History.stepUntil (h : History w d) (stop : World σ → Bool) (limit : Millis) (fuel : Nat)
    (hlimits : ∀ n < fuel, (World.stepUntil stop limit n w).isUnlimited = true) :
    ∃ d', History (World.stepUntil stop limit fuel w) d' := by
  induction fuel generalizing w d with
  | zero => exact ⟨d, h⟩
  | succ fuel ih =>
    rw [World.stepUntil]
    split_ifs with hstop
    · exact ⟨d, h⟩
    · cases hnext : w.next? limit with
      | none => exact ⟨d, h⟩
      | some v =>
        have hv : ∃ d', History v d' := by
          rw [next?] at hnext
          split at hnext
          next a others hfirst =>
            cases hnext
            obtain ⟨before, after, hactors, rfl, hready⟩ := firstReady?_eq_some hfirst
            have ha : a ∈ w.actors := by simp [hactors]
            exact ⟨_, h.turn hactors hready
              (awaits_of_isUnlimited (hlimits 0 (Nat.succ_pos _)) ha hready)⟩
          next =>
            split at hnext
            next t ht =>
              split_ifs at hnext
              cases hnext
              exact ⟨_, h.wait (Nat.le_max_left _ _)⟩
            next => cases hnext
        obtain ⟨d', hd'⟩ := hv
        refine ih hd' fun n hn => ?_
        have := hlimits (n + 1) (Nat.succ_lt_succ hn)
        rwa [World.stepUntil, if_neg hstop, hnext] at this

/-- A regular user naps, and two looped ones join it later, the first of which is removed. -/
def napsBegun : World Unit :=
  ((({} : World Unit).cast Controller.nap).2.openRun 0 { runId := "1", watchInterval := 3600000 }
    ).2.submit 0 [.create 1 .regular, .delay 50000, .create 2 .looped, .remove 1 .looped] none |>.2

/-- By then the regular user has ended. -/
def napsOver : World Unit := stepUntil (fun _ => false) 60000 100 napsBegun

theorem balance_of_naps :
    ∃ d : Nat → Departures, History napsOver d ∧ (d 0).ended.length = 1 ∧
      (d 0).removed.length = 1 ∧ (d 0).unremoved.length = 1 := by
  have hbegun : History napsBegun fun _ => {} :=
    .call (.call (.call (.empty rfl rfl) (.cast Controller.nap)) (.openRun _ (by decide +kernel)))
      (.submit none (by decide +kernel) (by decide))
  obtain ⟨d, hd⟩ := hbegun.stepUntil (fun _ => false) 60000 100 (by decide +kernel)
  have hcounts : (napsOver.run? 0).map (fun r =>
      (r.statistics 0, r.pool.live.length, r.pool.draining.length)) =
        some ({ created := 3, removed := 1, peak := 3 }, 1, 1) := by decide +kernel
  have hcreated : ∀ o, .operation o ∈ napsOver.actors → o.run = 0 → o.hold.isArrivals = false := by
    have htasks : napsOver.tasks = [] := by decide +kernel
    intro o ho
    exact nomatch List.filterMap_eq_nil_iff.1 htasks _ ho
  obtain ⟨r, hr, hr'⟩ := Option.map_eq_some_iff.1 hcounts
  obtain ⟨hsum, -, hremoved, -, -, hlive, -⟩ := History.balance hd hr hcreated 0
  rw [Prod.mk.injEq, Prod.mk.injEq] at hr'
  obtain ⟨hstatistics, hlength, hdraining⟩ := hr'
  rw [hstatistics] at hsum hremoved hlive
  refine ⟨d, hd, ?_, hremoved.symm, ?_⟩
  all_goals
    simp only at hsum hremoved hlive
    omega

end World

end LoadTest
