import LoadTest.Run.Operation
import Mathlib.Tactic.Common

/-!
# Aborted pools stay aborted

In a sound pool an abort has reached everyone: once the pool has been aborted, so has every user
within reach. Nothing that is done to a run undoes an abort, lowers its stop signal or makes its
pool unsound.
-/

namespace LoadTest

/-! ### Pools -/

/-- The user has been aborted, which includes being asked to stop. -/
def Member.IsAborted (m : Member) : Prop := m.aborted = true ∧ m.active = false

lemma Member.isAborted_abort (m : Member) : m.abort.IsAborted := ⟨rfl, rfl⟩

lemma mem_insertMember {m n : Member} {ms : List Member} :
    n ∈ insertMember m ms ↔ n = m ∨ n ∈ ms := by
  induction ms with
  | nil => simp [insertMember]
  | cons k ms ih =>
    rw [insertMember]
    split_ifs
    · exact List.mem_cons
    · rw [List.mem_cons, ih, List.mem_cons]
      exact or_left_comm

lemma mem_foldr_insertMember {n : Member} {ms ns : List Member} :
    n ∈ ms.foldr insertMember ns ↔ n ∈ ms ∨ n ∈ ns := by
  induction ms with
  | nil => simp
  | cons m ms ih => rw [List.foldr_cons, mem_insertMember, ih, List.mem_cons, or_assoc]

lemma mem_takeOldest {mode : Mode} {amount : Nat} {m : Member} {ms : List Member} :
    m ∈ (takeOldest mode amount ms).1 ∨ m ∈ (takeOldest mode amount ms).2 ↔ m ∈ ms := by
  induction ms generalizing amount with
  | nil => simp [takeOldest]
  | cons n ms ih =>
    cases amount with
    | zero => simp [takeOldest]
    | succ amount =>
      rw [takeOldest]
      split_ifs
      · rw [List.mem_cons, List.mem_cons, or_assoc, ih]
      · rw [List.mem_cons, List.mem_cons, or_left_comm, ih]

namespace Pool

/-- Once the pool has been aborted, everyone within reach has been. -/
def Sound (p : Pool) : Prop := p.aborted = true → ∀ m ∈ p.members, m.IsAborted

/-- What a pool may become: an abort stays, and soundness too. -/
def Later (p q : Pool) : Prop := (p.aborted = true → q.aborted = true) ∧ (p.Sound → q.Sound)

lemma Later.refl (p : Pool) : p.Later p := ⟨id, id⟩

lemma Later.trans {p q r : Pool} (hpq : p.Later q) (hqr : q.Later r) : p.Later r :=
  ⟨hqr.1 ∘ hpq.1, hqr.2 ∘ hpq.2⟩

/-- Losing members, or having some of them changed in a way that keeps an abort, is harmless. -/
lemma later_of_members {p q : Pool} (haborted : q.aborted = p.aborted)
    (h : ∀ n ∈ q.members, ∃ m ∈ p.members, m.IsAborted → n.IsAborted) : p.Later q := by
  refine ⟨fun hp => haborted.trans hp, fun hp hq n hn => ?_⟩
  obtain ⟨m, hm, himp⟩ := h n hn
  exact himp (hp (haborted ▸ hq) m hm)

lemma mem_members {p : Pool} {m : Member} : m ∈ p.members ↔ m ∈ p.live ∨ m ∈ p.draining :=
  List.mem_append

lemma later_issueId (p : Pool) : p.Later p.issueId.2 :=
  later_of_members rfl fun n hn => ⟨n, hn, id⟩

/-- Who arrives in an aborted pool is aborted. -/
lemma later_register (p : Pool) (m : Member) : p.Later (p.register m) := by
  refine ⟨id, fun hp haborted n hn => ?_⟩
  have hpool : p.aborted = true := haborted
  rcases mem_members.1 hn with hlive | hdraining
  · rcases mem_insertMember.1 hlive with rfl | hlive
    · rw [if_pos hpool]
      exact m.isAborted_abort
    · exact hp hpool n (mem_members.2 (.inl hlive))
  · exact hp hpool n (mem_members.2 (.inr hdraining))

lemma later_deregister (p : Pool) (id : UserId) : p.Later (p.deregister id) := by
  rw [deregister]
  split_ifs
  · refine later_of_members rfl fun n hn => ⟨n, ?_, fun h => h⟩
    exact mem_members.2 ((mem_members.1 hn).imp_left fun h => (List.mem_filter.1 h).1)
  · refine later_of_members rfl fun n hn => ⟨n, ?_, fun h => h⟩
    exact mem_members.2 ((mem_members.1 hn).imp_right fun h => (List.mem_filter.1 h).1)

lemma later_take (p : Pool) (amount : Nat) (mode : Mode) : p.Later (p.take amount mode).2 := by
  refine later_of_members rfl fun n hn => ⟨n, mem_members.2 ?_, id⟩
  rcases mem_members.1 hn with hleft | hdraining
  · exact .inl (mem_takeOldest.1 (.inr hleft))
  · rcases mem_foldr_insertMember.1 hdraining with htaken | hdraining
    · exact .inl (mem_takeOldest.1 (.inl htaken))
    · exact .inr hdraining

/-- Changing some of the users is harmless if the change keeps an abort. -/
lemma later_update {f : Member → Member} (hf : ∀ m : Member, m.IsAborted → (f m).IsAborted)
    (p : Pool) (ids : List UserId) : p.Later (p.update f ids) := by
  have hchange : ∀ {ms : List Member} {n : Member},
      n ∈ ms.map (fun m => if m.id ∈ ids then f m else m) →
        ∃ m ∈ ms, m.IsAborted → n.IsAborted := by
    intro ms n hn
    obtain ⟨m, hm, rfl⟩ := List.mem_map.1 hn
    refine ⟨m, hm, fun h => ?_⟩
    split_ifs
    · exact hf m h
    · exact h
  refine later_of_members rfl fun n hn => ?_
  rcases mem_members.1 hn with hn | hn
  · obtain ⟨m, hm, himp⟩ := hchange hn
    exact ⟨m, mem_members.2 (.inl hm), himp⟩
  · obtain ⟨m, hm, himp⟩ := hchange hn
    exact ⟨m, mem_members.2 (.inr hm), himp⟩

lemma later_requestStop (p : Pool) (ids : List UserId) : p.Later (p.update .requestStop ids) :=
  p.later_update (f := Member.requestStop) (fun _ h => ⟨h.1, rfl⟩) ids

lemma later_abort (p : Pool) (ids : List UserId) : p.Later (p.update .abort ids) :=
  p.later_update (f := Member.abort) (fun m _ => m.isAborted_abort) ids

/-- An abort reaches everyone. -/
lemma sound_abortAll (p : Pool) : p.abortAll.2.Sound := by
  intro _ n hn
  rcases mem_members.1 hn with hn | hn
  · obtain ⟨m, -, rfl⟩ := List.mem_map.1 hn
    exact m.isAborted_abort
  · obtain ⟨m, -, rfl⟩ := List.mem_map.1 hn
    exact m.isAborted_abort

lemma later_abortAll (p : Pool) : p.Later p.abortAll.2 :=
  ⟨fun _ => rfl, fun _ => p.sound_abortAll⟩

/-- Everyone in a sound pool that has been aborted has been, also after someone else has arrived. -/
lemma Sound.register {p : Pool} (hp : p.Sound) (haborted : p.aborted = true) (m : Member) :
    ∀ n ∈ (p.register m).members, n.IsAborted :=
  (p.later_register m).2 hp haborted

end Pool

/-! ### Runs -/

namespace Run

/-- What a run may become: its signal stays raised, and its pool is a later one. -/
def Later (r q : Run) : Prop := (r.isRaised = true → q.isRaised = true) ∧ r.pool.Later q.pool

lemma Later.refl (r : Run) : r.Later r := ⟨id, .refl _⟩

lemma Later.trans {r q t : Run} (hrq : r.Later q) (hqt : q.Later t) : r.Later t :=
  ⟨hqt.1 ∘ hrq.1, hrq.2.trans hqt.2⟩

lemma isRaised_raise (r : Run) : r.raise.2.isRaised = true := rfl

lemma pool_raise (r : Run) : r.raise.2.pool = r.pool := rfl

lemma later_raise (r : Run) : r.Later r.raise.2 := ⟨fun _ => rfl, .refl _⟩

/-- Only the pool changes, to a later one. -/
lemma later_pool (r : Run) {p : Pool} (h : r.pool.Later p) : r.Later { r with pool := p } := ⟨id, h⟩

end Run

/-- An errand leaves a later run. -/
lemma Errand.later_perform (now : Millis) (r : Run) (e : Errand) :
    r.Later (e.perform now r).run := by
  cases e with
  | create amount lifecycle =>
    rw [perform]
    split_ifs
    · exact .refl r
    · exact ⟨id, .refl _⟩
  | remove amount mode =>
    rw [perform]
    split_ifs
    · exact .refl r
    · exact ⟨id, (r.pool.later_take amount mode).trans (Pool.later_requestStop _ _)⟩
  | spread change amount span =>
    rw [perform]
    cases stepDelay amount (.ofMillis span) <;> exact .refl r
  | paced change left step =>
    cases left with
    | zero => exact .refl r
    | succ left =>
      rw [perform]
      split_ifs <;> exact .refl r
  | units left since =>
    cases left with
    | nil => exact .refl r
    | cons unit left =>
      rw [perform]
      split_ifs <;> exact .refl r
  | abort => exact r.later_pool r.pool.later_abortAll
  | raise => exact r.later_raise
  | count amount mode => exact ⟨id, .refl _⟩
  | _ => exact .refl r

/-- So does a step of an operation, which stays the same operation. -/
lemma Operation.later_step (o : Operation) (now : Millis) (r : Run) :
    r.Later (o.step now r).1 ∧ (o.step now r).2.1.id = o.id ∧ (o.step now r).2.1.run = o.run := by
  rw [step]
  split_ifs with hover
  · exact ⟨.refl r, rfl, rfl⟩
  · cases hagenda : o.agenda with
    | nil => exact ⟨.refl r, rfl, rfl⟩
    | cons errand rest =>
      simp only
      cases houtcome : (errand.perform now r).outcome with
      | some outcome => exact ⟨errand.later_perform now r, rfl, rfl⟩
      | none => exact ⟨errand.later_perform now r, rfl, rfl⟩

end LoadTest
