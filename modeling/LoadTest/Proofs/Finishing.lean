import LoadTest.Proofs.Spells
import LoadTest.Proofs.Vigils

/-!
# When everyone has finished

As long as nobody disturbs a run, each of its users ends when its session is to end. That is known
from the beginning of the session and from what the user finds by then when it looks at the run. So
a wait for users that are not looped returns when the last of them is to end, or at once if they all
have ended by then.
-/

namespace LoadTest

variable {σ : Type}

/-! ### Notes of sessions -/

/-- A user of a run begins its session. -/
structure Start where
  id : UserId
  time : Millis
  instanceNumber : Nat
  lifecycle : Lifecycle
  deriving DecidableEq, Repr

/-- What can be seen of the sessions in a run. -/
inductive SessionNote where
  | begins (s : Start)
  /-- A user looks at the run, and finds it to be so. -/
  | finds (id : UserId) (v : RunView)
  deriving DecidableEq, Repr

namespace SessionNote

def id : SessionNote → UserId
  | .begins s => s.id
  | .finds id _ => id

def start? : SessionNote → Option Start
  | .begins s => some s
  | .finds _ _ => none

/-- The view, if it is the user of an id that has found it. -/
def foundBy? (id : UserId) : SessionNote → Option RunView
  | .begins _ => none
  | .finds id' v => if id' = id then some v else none

end SessionNote

/-- The sessions that have begun. -/
def starts (log : List SessionNote) : List Start := log.filterMap SessionNote.start?

/-- What the user of an id has found. -/
def foundBy (id : UserId) (log : List SessionNote) : List RunView :=
  log.filterMap (SessionNote.foundBy? id)

/-- The instant at which a session is to end, if its user goes on to find certain views. -/
def Start.ends (s : Start) (t : Template σ) (log : List SessionNote) (found : List RunView) :
    Millis :=
  ((t.session s.instanceNumber s.lifecycle).after s.time (foundBy s.id log ++ found)).time

/-- The instant at which the last of the sessions that have begun is to be over, if that is still to
come. -/
def lastEnd (t : Template σ) (now : Millis) (log : List SessionNote) : Millis :=
  ((starts log).map fun s => s.ends t log []).foldr max now

section Notes

variable {t : Template σ} {log more : List SessionNote} {s : Start} {id : UserId}

lemma starts_append : starts (log ++ more) = starts log ++ starts more := List.filterMap_append

lemma mem_starts : s ∈ starts log ↔ .begins s ∈ log := by
  rw [starts, List.mem_filterMap]
  constructor
  · rintro ⟨n, hn, heq⟩
    cases n with
    | begins s' =>
      cases heq
      exact hn
    | finds id v => cases heq
  · exact fun hs => ⟨_, hs, rfl⟩

lemma foundBy_append : foundBy id (log ++ more) = foundBy id log ++ foundBy id more :=
  List.filterMap_append

lemma foundBy_of_ne (h : ∀ n ∈ log, n.id ≠ id) : foundBy id log = [] := by
  refine List.filterMap_eq_nil_iff.2 fun n hn => ?_
  cases n with
  | begins s => rfl
  | finds id' v => exact if_neg (h _ hn)

lemma foundBy_finds (id : UserId) (found : List RunView) :
    foundBy id (found.map (.finds id)) = found := by
  rw [foundBy, List.filterMap_map]
  have hsome : SessionNote.foundBy? id ∘ SessionNote.finds id = some := by
    funext v
    exact if_pos rfl
  rw [hsome, List.filterMap_some]

lemma starts_finds (id : UserId) (found : List RunView) :
    starts (found.map (.finds id)) = [] := by
  refine List.filterMap_eq_nil_iff.2 fun n hn => ?_
  obtain ⟨v, -, rfl⟩ := List.mem_map.1 hn
  rfl

/-- What has been noted later counts as found. -/
lemma Start.ends_append (found : List RunView) :
    s.ends t (log ++ more) found = s.ends t log (foundBy s.id more ++ found) := by
  rw [ends, ends, foundBy_append, List.append_assoc]

/-- What others find makes no difference. -/
lemma Start.ends_of_ne (h : ∀ n ∈ more, n.id ≠ s.id) : s.ends t (log ++ more) = s.ends t log := by
  funext found
  rw [ends_append, foundBy_of_ne h, List.nil_append]

lemma le_lastEnd (t : Template σ) (now : Millis) (log : List SessionNote) :
    now ≤ lastEnd t now log := by
  rw [lastEnd]
  induction starts log with
  | nil => exact Nat.le_refl now
  | cons s ss ih => exact ih.trans (Nat.le_max_right ..)

lemma ends_le_lastEnd (now : Millis) (hs : s ∈ starts log) :
    s.ends t log [] ≤ lastEnd t now log := by
  rw [lastEnd]
  generalize starts log = ss at hs
  induction ss with
  | nil => cases hs
  | cons s' ss ih =>
    obtain rfl | hs := List.mem_cons.1 hs
    · exact Nat.le_max_left ..
    · exact (ih hs).trans (Nat.le_max_right ..)

lemma lastEnd_le {now ends : Millis} (hnow : now ≤ ends)
    (hstarts : ∀ s ∈ starts log, s.ends t log [] ≤ ends) : lastEnd t now log ≤ ends := by
  rw [lastEnd]
  generalize starts log = ss at hstarts
  induction ss with
  | nil => exact hnow
  | cons s ss ih =>
    have hall := List.forall_mem_cons.1 hstarts
    exact Nat.max_le.2 ⟨hall.1, ih hall.2⟩

end Notes

/-! ### Users on time -/

/-- The user stands where it has to for its session to end when it is to, whatever it finds. -/
structure User.OnTime (u : User σ) (now : Millis) (ends : List RunView → Millis) : Prop where
  awake : ∀ t, u.wakeAt? = some t → now ≤ t
  bounded : u.lifecycle ≠ .looped
  inBounds : u.phase.InBounds u.lifecycle
  endsAt : ∀ found, u.endsAt found now = ends found

namespace User

variable {u : User σ}

/-- What can be seen of its session as the user takes a step. -/
def notes (u : User σ) (v : View) : List SessionNote :=
  match u.phase with
  | .arrived => [.begins ⟨u.id, v.now, v.nextInstance, u.lifecycle⟩]
  | _ => (u.finding v).map (.finds u.id)

lemma notes_of_arrived (h : u.phase = .arrived) (v : View) :
    u.notes v = [.begins ⟨u.id, v.now, v.nextInstance, u.lifecycle⟩] := by
  rw [notes, h]

lemma notes_of_hasInstance (h : u.hasInstance = true) (v : View) :
    u.notes v = (u.finding v).map (.finds u.id) := by
  rw [hasInstance] at h
  rw [notes]
  cases hphase : u.phase <;> simp [hphase] at h ⊢

lemma notes_of_isLaunched (h : u.isLaunched = true) (v : View) : u.notes v = [] := by
  rw [notes, finding, phase_of_isLaunched h]
  rfl

lemma hasInstance_of_inBounds {l : Lifecycle} (h : u.phase.InBounds l) : u.hasInstance = true := by
  rw [hasInstance]
  cases hphase : u.phase <;> simp [hphase, Phase.InBounds] at h ⊢

lemma isEnrolled_of_hasInstance (h : u.hasInstance = true) : u.isEnrolled = true := by
  rw [hasInstance] at h
  rw [isEnrolled, isLaunched, isEnded]
  cases hphase : u.phase <;> simp [hphase] at h ⊢

lemma isEnrolled_of_arrived (h : u.phase = .arrived) : u.isEnrolled = true := by
  simp [isEnrolled, isLaunched, isEnded, h]

/-- A user that has entered the pool is to get its instance, or has it. -/
lemma arrived_or_hasInstance (h : u.isEnrolled = true) :
    u.phase = .arrived ∨ u.hasInstance = true := by
  rw [isEnrolled, isLaunched, isEnded] at h
  rw [hasInstance]
  cases hphase : u.phase <;> simp [hphase] at h ⊢

end User

namespace World

variable {w v : World σ} {i : Nat} {r q : Run} {t : Template σ} {log : List SessionNote}

/-- What can be seen of the sessions in the run at a place by what happens next. -/
def sessionNotes (i : Nat) (w : World σ) (a : Option (Actor σ)) (_ : World σ) :
    List SessionNote :=
  match a with
  | some (.user j u) =>
    match w.run? j with
    | some r => if j = i then u.notes (w.viewOf r u) else []
    | none => []
  | _ => []

lemma sessionNotes_eq_nil {a : Option (Actor σ)} (h : ∀ u, a ≠ some (.user i u)) :
    w.sessionNotes i a v = [] := by
  unfold sessionNotes
  split
  next j u =>
    have hj : j ≠ i := fun hj => h u (by rw [hj])
    split <;> simp [hj]
  next => rfl

lemma sessionNotes_of_user (hr : w.run? i = some r) (u : User σ) :
    w.sessionNotes i (some (.user i u)) v = u.notes (w.viewOf r u) := by
  simp [sessionNotes, hr]

/-- The id that the next user in the run at a place gets. -/
def nextUserId (w : World σ) (i : Nat) : UserId := ((w.run? i).map fun r => r.pool.nextId).getD 0

lemma nextUserId_eq (hr : w.run? i = some r) : w.nextUserId i = r.pool.nextId := by
  rw [nextUserId, hr]
  rfl

lemma Reachable.nextUserId_happens (hw : w.Reachable) {a : Option (Actor σ)} (h : Happens w a v)
    (i : Nat) : w.nextUserId i ≤ v.nextUserId i := by
  cases hr : w.run? i with
  | none =>
    rw [nextUserId, hr]
    exact Nat.zero_le _
  | some r =>
    obtain ⟨q, hq, hdealings⟩ := hw.dealings_happens h hr
    rw [nextUserId_eq hr, nextUserId_eq hq]
    exact hdealings.grown.nextId

/-- The sessions in the run at a place that have begun: each user that has an instance is to end
when its session is, and each session is over or its user is to end when it is. What is noted is
about users that have got their instance. -/
structure Booked (w : World σ) (i : Nat) (t : Template σ) (log : List SessionNote) : Prop where
  users : ∀ u, .user i u ∈ w.actors → u.hasInstance = true →
    ∃ s ∈ starts log, s.id = u.id ∧ u.OnTime w.now (s.ends t log)
  sessions : ∀ s ∈ starts log, (∀ found, s.ends t log found ≤ w.now) ∨
    ∃ u, .user i u ∈ w.actors ∧ u.hasInstance = true ∧ u.id = s.id ∧
      u.OnTime w.now (s.ends t log)
  fresh : ∀ u, .user i u ∈ w.actors → u.phase = .arrived → ∀ n ∈ log, n.id ≠ u.id
  issued : ∀ n ∈ log, n.id < w.nextUserId i

/-! ### Users of a run -/

/-- A user in an untouched run is not asked to stop. -/
lemma viewOf_of_untouched (hr : r.Sane) (huntouched : r.Untouched) (u : User σ) :
    (w.viewOf r u).active = true ∧ (w.viewOf r u).aborted = false ∧
      (w.viewOf r u).run.raised = false := by
  have hmember := hr.unasked huntouched.removed huntouched.unaborted
  refine ⟨?_, ?_, huntouched.unraised⟩
  · rw [viewOf, Pool.find?_eq_find?_members]
    cases hfind : r.pool.members.find? (·.id == u.id) with
    | none => rfl
    | some m => exact (hmember m (List.mem_of_find?_eq_some hfind)).1
  · rw [viewOf, Pool.find?_eq_find?_members]
    cases hfind : r.pool.members.find? (·.id == u.id) with
    | none => rfl
    | some m => exact (hmember m (List.mem_of_find?_eq_some hfind)).2

/-- A user that is on time takes its turn at the instant at which its suspension is over. -/
lemma wakeAt_eq_now (hr : w.run? i = some r) (huntouched : r.Untouched) {u : User σ}
    {ends : List RunView → Millis} (hu : u.OnTime w.now ends)
    (hready : w.isReady (.user i u) = true) {wakeAt : Millis} (hwake : u.wakeAt? = some wakeAt) :
    wakeAt = w.now := by
  rw [isReady, hwake, hr, Option.any_some, isAborted, huntouched.unaborted] at hready
  exact Nat.le_antisymm (by simpa using hready) (hu.awake wakeAt hwake)

/-- A user in the pool has an id that has been issued. -/
lemma Staffed.mem_ids (hw : w.Staffed) (hr : w.run? i = some r) {u : User σ}
    (hu : .user i u ∈ w.actors) (henrolled : u.isEnrolled = true) : u.id ∈ r.pool.ids :=
  (hw.run i r hr).enrolled.mem_iff.1 (List.mem_filterMap.2 ⟨_, hu, if_pos ⟨rfl, henrolled⟩⟩)

/-- No two users in the pool have the same id. -/
lemma Staffed.id_ne (hw : w.Staffed) (hr : w.run? i = some r) {u p : User σ}
    {others : List (Actor σ)} (hactors : w.actors.Perm (.user i u :: others))
    (hu : u.isEnrolled = true) (hp : .user i p ∈ others) (henrolled : p.isEnrolled = true) :
    u.id ≠ p.id := by
  have hstaffed := hw.run i r hr
  have hperm := (hactors.filterMap (Actor.enrolled? i)).symm.trans hstaffed.enrolled
  have hcons : (Actor.user i u :: others).filterMap (Actor.enrolled? i) =
      u.id :: others.filterMap (Actor.enrolled? i) :=
    List.filterMap_cons_some (if_pos ⟨rfl, hu⟩)
  rw [hcons] at hperm
  have hnodup := List.nodup_cons.1 (hperm.nodup_iff.2 hstaffed.nodup)
  intro heq
  exact hnodup.1 (heq ▸ List.mem_filterMap.2 ⟨_, hp, if_pos ⟨rfl, henrolled⟩⟩)

/-- All users of a run are of its template. -/
lemma Reachable.template_of_user (hw : w.Reachable) (hr : w.run? i = some r)
    (ht : w.template? r.template = some t) {u : User σ} (hu : .user i u ∈ w.actors) :
    u.template = t ∧ u.IsOf t := by
  obtain ⟨t', ⟨r', hr', ht'⟩, hof⟩ := hw.isOf hu
  cases hr'.symm.trans hr
  cases ht'.symm.trans ht
  exact ⟨hof.template_eq, hof⟩

/-- The turn of a user leaves all others, and what is left of it unless it has ended. -/
lemma mem_actors_turn_user (others : List (Actor σ)) (hr : w.run? i = some r) {u : User σ}
    (hlaunched : u.isLaunched = false) (hended : u.isEnded = false) {b : Actor σ} :
    b ∈ (w.turn (.user i u) others).actors ↔
      (w.stepUser r u).isEnded = false ∧ b = .user i (w.stepUser r u) ∨ b ∈ others := by
  cases hends : (w.stepUser r u).isEnded with
  | true =>
    obtain ⟨_, -, -, -, hafter⟩ := turn_ends others hr hlaunched hended hends
    simp [hafter]
  | false =>
    obtain ⟨_, -, -, -, hafter⟩ := turn_goesOn others hr hlaunched hended hends
    rw [hafter]
    split_ifs <;> simp [or_comm]

/-! ### Steps -/

/-- Nobody who has an instance does anything, and nobody gets one. -/
lemma Booked.of_same (h : w.Booked i t log) (hnow : v.now = w.now)
    (hsame : ∀ u, u.hasInstance = true → (.user i u ∈ v.actors ↔ .user i u ∈ w.actors))
    (harrived : ∀ u, .user i u ∈ v.actors → u.phase = .arrived →
      .user i u ∈ w.actors ∨ w.nextUserId i ≤ u.id)
    (hissued : w.nextUserId i ≤ v.nextUserId i) : v.Booked i t log where
  users u hu hinstance := by
    rw [hnow]
    exact h.users u ((hsame u hinstance).1 hu) hinstance
  sessions s hs := by
    rw [hnow]
    obtain hover | ⟨u, hu, hinstance, htime⟩ := h.sessions s hs
    · exact .inl hover
    · exact .inr ⟨u, (hsame u hinstance).2 hu, hinstance, htime⟩
  fresh u hu hphase n hn := by
    obtain hu | hle := harrived u hu hphase
    · exact h.fresh u hu hphase n hn
    · exact Nat.ne_of_lt (Nat.lt_of_lt_of_le (h.issued n hn) hle)
  issued n hn := Nat.lt_of_lt_of_le (h.issued n hn) hissued

/-- The turn of someone who is not a user of the run. -/
lemma Booked.turn_other (h : w.Booked i t log) (hw : w.Staffed) {a : Actor σ}
    {others : List (Actor σ)} (hactors : w.actors.Perm (a :: others))
    (ha : ∀ u, a ≠ .user i u) (hissued : w.nextUserId i ≤ (w.turn a others).nextUserId i) :
    (w.turn a others).Booked i t log := by
  have hold (u : User σ) (henrolled : u.isEnrolled = true) :
      .user i u ∈ (w.turn a others).actors ↔ .user i u ∈ w.actors := by
    obtain ⟨new, hafter, hnew⟩ :=
      (hw.lineup (hactors.mem_iff.2 (List.mem_cons_self ..)) others).perm
    rw [hafter.mem_iff, hactors.mem_iff, List.mem_append, List.mem_cons]
    constructor
    · rintro (hu | hu)
      · obtain hsucceeds | hlaunches := hnew _ hu
        · cases hsucceeds with
          | user hr hgoes => exact absurd rfl (ha _)
        · cases hlaunches
          cases henrolled
      · exact .inr hu
    · rintro (hu | hu)
      · exact absurd hu.symm (ha u)
      · exact .inr hu
  refine h.of_same now_of_turn (fun u hinstance => ?_) (fun u hu hphase => .inl ?_) hissued
  · exact hold u (User.isEnrolled_of_hasInstance hinstance)
  · exact (hold u (User.isEnrolled_of_arrived hphase)).1 hu

/-- A user that has been launched enters the pool under a new id. -/
lemma Booked.turn_launched (h : w.Booked i t log) (hr : w.run? i = some r) {u : User σ}
    {others : List (Actor σ)} (hactors : w.actors.Perm (.user i u :: others))
    (hlaunched : u.isLaunched = true)
    (hissued : w.nextUserId i ≤ (w.turn (.user i u) others).nextUserId i) :
    (w.turn (.user i u) others).Booked i t log := by
  have hphase := User.phase_of_isLaunched hlaunched
  have hafter := (World.turn_launched others hr hlaunched).2
  refine h.of_same now_of_turn (fun p hinstance => ?_) (fun p hp hp' => ?_) hissued
  · rw [hafter, hactors.mem_iff, List.mem_cons, List.mem_cons]
    refine or_congr ⟨fun hp => ?_, fun hp => ?_⟩ Iff.rfl
    · cases hp
      cases hinstance
    · cases hp
      simp [User.hasInstance, hphase] at hinstance
  · rw [hafter] at hp
    obtain hp | hp := List.mem_cons.1 hp
    · cases hp
      exact .inr (Nat.le_of_eq (nextUserId_eq hr))
    · exact .inl (hactors.mem_iff.2 (List.mem_cons_of_mem _ hp))

/-- What is noted as a user of a run takes its turn: all of it is about that user, which by its turn
keeps to the end of the session `s`, whatever it finds later. -/
structure Attests (w : World σ) (t : Template σ) (r : Run) (u : User σ)
    (log more : List SessionNote) (s : Start) : Prop where
  about : ∀ n ∈ more, n.id = u.id
  begun : s ∈ starts (log ++ more)
  id : s.id = u.id
  only : ∀ s' ∈ starts more, s' = s
  same : ∀ s' : Start, u.hasInstance = true → u.id = s'.id → u.OnTime w.now (s'.ends t log) →
    s'.ends t (log ++ more) = s.ends t (log ++ more)
  keeps : ∀ found, (w.stepUser r u).KeepsTo found w.now (s.ends t (log ++ more) found)

namespace Attests

variable {u : User σ} {more : List SessionNote} {s : Start} {others : List (Actor σ)}

/-- What others find is not noted then. -/
lemma ends_of_other (h : w.Attests t r u log more s) (hw : w.Staffed) (hr : w.run? i = some r)
    (hactors : w.actors.Perm (.user i u :: others)) (hu : u.isEnrolled = true) {p : User σ}
    (hp : .user i p ∈ others) (henrolled : p.isEnrolled = true) :
    (∀ n ∈ more, n.id ≠ p.id) ∧
      ∀ s' : Start, s'.id = p.id → s'.ends t (log ++ more) = s'.ends t log := by
  have hne : ∀ n ∈ more, n.id ≠ p.id := by
    intro n hn
    rw [h.about n hn]
    exact hw.id_ne hr hactors hu hp henrolled
  exact ⟨hne, fun s' hid => Start.ends_of_ne (hid ▸ hne)⟩

/-- The user is on time after its turn, unless its session is over by it. -/
lemma onTime (h : w.Attests t r u log more s) (hof : u.IsOf t) (hl : u.lifecycle ≠ .looped)
    (hgoes : (w.stepUser r u).isEnded = false) :
    (w.stepUser r u).OnTime w.now (s.ends t (log ++ more)) where
  awake wakeAt hwake := Nat.le_of_lt (User.lt_wakeAt_step hwake)
  bounded := by
    rw [stepUser, hof.lifecycle_step]
    exact hl
  inBounds := ((h.keeps []).goesOn hgoes).1
  endsAt found := ((h.keeps found).goesOn hgoes).2

/-- So that session is over, or its user is there to end when it is. -/
lemma session (h : w.Attests t r u log more s) (hr : w.run? i = some r) (hof : u.IsOf t)
    (hu : u.isEnrolled = true) (hl : u.lifecycle ≠ .looped) (others : List (Actor σ)) :
    (∀ found, s.ends t (log ++ more) found ≤ w.now) ∨
      ∃ p, .user i p ∈ (w.turn (.user i u) others).actors ∧ p.hasInstance = true ∧
        p.id = u.id ∧ p.OnTime w.now (s.ends t (log ++ more)) := by
  obtain ⟨hlaunched, hended⟩ := User.isEnrolled_iff.1 hu
  cases hends : (w.stepUser r u).isEnded with
  | true => exact .inl fun found => Nat.le_of_eq ((h.keeps found).ended hends)
  | false =>
    have htime := h.onTime hof hl hends
    exact .inr ⟨_, (mem_actors_turn_user others hr hlaunched hended).2 (.inl ⟨hends, rfl⟩),
      User.hasInstance_of_inBounds htime.inBounds, (User.carries_step _ hlaunched hended).id, htime⟩

end Attests

/-- A user takes its turn that has an instance or gets one by it. -/
lemma Reachable.booked_turn_user (hw : w.Reachable) (h : w.Booked i t log) {u : User σ}
    {others : List (Actor σ)} (hactors : w.actors.Perm (.user i u :: others))
    (hr : w.run? i = some r) (ht : w.template? r.template = some t) (hu : u.isEnrolled = true)
    (hl : u.lifecycle ≠ .looped)
    (hissued : w.nextUserId i ≤ (w.turn (.user i u) others).nextUserId i)
    {more : List SessionNote} {s : Start} (hnotes : w.Attests t r u log more s) :
    (w.turn (.user i u) others).Booked i t (log ++ more) := by
  have hmem : .user i u ∈ w.actors := hactors.mem_iff.2 (List.mem_cons_self ..)
  obtain ⟨-, hof⟩ := hw.template_of_user hr ht hmem
  obtain ⟨hlaunched, hended⟩ := User.isEnrolled_iff.1 hu
  have hnow : (w.turn (.user i u) others).now = w.now := now_of_turn
  have hafter {b : Actor σ} := mem_actors_turn_user (b := b) others hr hlaunched hended
  have hothers {p : User σ} (hp : .user i p ∈ others) (hp' : p.isEnrolled = true) :=
    hnotes.ends_of_other hw.staffed hr hactors hu hp hp'
  constructor
  case users =>
    intro p hp hinstance
    rw [hnow]
    obtain ⟨hgoes, hp⟩ | hp := hafter.1 hp
    · cases hp
      have hid : (w.stepUser r u).id = u.id := (User.carries_step _ hlaunched hended).id
      exact ⟨s, hnotes.begun, hnotes.id.trans hid.symm, hnotes.onTime hof hl hgoes⟩
    · obtain ⟨s', hs', hid, htime⟩ :=
        h.users p (hactors.mem_iff.2 (List.mem_cons_of_mem _ hp)) hinstance
      refine ⟨s', ?_, hid, ?_⟩
      · rw [starts_append]
        exact List.mem_append_left _ hs'
      · rw [(hothers hp (User.isEnrolled_of_hasInstance hinstance)).2 s' hid]
        exact htime
  case sessions =>
    intro s' hs'
    rw [hnow]
    have hown := hnotes.session hr hof hu hl others
    rw [starts_append] at hs'
    obtain hs' | hs' := List.mem_append.1 hs'
    · obtain hover | ⟨p, hp, hinstance, hid, htime⟩ := h.sessions s' hs'
      · exact .inl fun found => Start.ends_append found ▸ hover _
      · obtain hp | hp := List.mem_cons.1 (hactors.mem_iff.1 hp)
        · cases hp
          rw [hnotes.same s' hinstance hid htime, ← hid]
          exact hown
        · refine .inr ⟨p, hafter.2 (.inr hp), hinstance, hid, ?_⟩
          rw [(hothers hp (User.isEnrolled_of_hasInstance hinstance)).2 s' hid.symm]
          exact htime
    · rw [hnotes.only s' hs', hnotes.id]
      exact hown
  case fresh =>
    intro p hp hphase n hn
    obtain ⟨hgoes, hp⟩ | hp := hafter.1 hp
    · cases hp
      have hinstance := User.hasInstance_of_inBounds (hnotes.onTime hof hl hgoes).inBounds
      simp [User.hasInstance, hphase] at hinstance
    · obtain hn | hn := List.mem_append.1 hn
      · exact h.fresh p (hactors.mem_iff.2 (List.mem_cons_of_mem _ hp)) hphase n hn
      · exact (hothers hp (User.isEnrolled_of_arrived hphase)).1 n hn
  case issued =>
    intro n hn
    refine Nat.lt_of_lt_of_le ?_ hissued
    obtain hn | hn := List.mem_append.1 hn
    · exact h.issued n hn
    · rw [hnotes.about n hn, nextUserId_eq hr]
      exact (hw.staffed.run i r hr).lt _ (hw.staffed.mem_ids hr hmem hu)

/-- A user of the run takes its turn in its session. -/
lemma Booked.turn_instance (h : w.Booked i t log) (hw : w.Reachable) {u : User σ}
    {others : List (Actor σ)} (hfirst : w.firstReady? w.actors = some (.user i u, others))
    (hr : w.run? i = some r) (ht : w.template? r.template = some t) (huntouched : r.Untouched)
    (hinstance : u.hasInstance = true)
    (hissued : w.nextUserId i ≤ (w.turn (.user i u) others).nextUserId i) :
    (w.turn (.user i u) others).Booked i t
      (log ++ (u.finding (w.viewOf r u)).map (.finds u.id)) := by
  obtain ⟨_, _, -, -, hready⟩ := firstReady?_eq_some hfirst
  obtain ⟨s, hs, hid, htime⟩ := h.users u (mem_of_firstReady? hfirst) hinstance
  obtain ⟨hactive, hunaborted, hunraised⟩ := viewOf_of_untouched (w := w) (hw.sane hr) huntouched u
  -- The end of its session is told by what it finds now and later.
  have hends {s' : Start} (hid' : u.id = s'.id) (htime' : u.OnTime w.now (s'.ends t log)) :
      s'.ends t (log ++ (u.finding (w.viewOf r u)).map (.finds u.id)) =
        fun found => u.endsAt (u.finding (w.viewOf r u) ++ found) w.now := by
    funext found
    rw [Start.ends_append, ← hid', foundBy_finds, htime'.endsAt]
  refine hw.booked_turn_user h (perm_of_firstReady? hfirst) hr ht
    (User.isEnrolled_of_hasInstance hinstance) htime.bounded hissued (s := s) ?_
  constructor
  case about => simp [SessionNote.id]
  case begun =>
    rw [starts_append]
    exact List.mem_append_left _ hs
  case id => exact hid
  case only =>
    rw [starts_finds]
    simp
  case same =>
    intro s' _ hid' htime'
    rw [hends hid' htime', hends hid.symm htime]
  case keeps =>
    intro found
    rw [hends hid.symm htime]
    exact User.keepsTo_step htime.bounded htime.inBounds hunaborted hactive hunraised
      (fun _ hwake => wakeAt_eq_now hr huntouched htime hready hwake) found

/-- A user of the run gets its instance, and begins its session. -/
lemma Booked.turn_arrived (h : w.Booked i t log) (hw : w.Reachable) {u : User σ}
    {others : List (Actor σ)} (hactors : w.actors.Perm (.user i u :: others))
    (hr : w.run? i = some r) (ht : w.template? r.template = some t) (hphase : u.phase = .arrived)
    (hl : u.lifecycle ≠ .looped)
    (hissued : w.nextUserId i ≤ (w.turn (.user i u) others).nextUserId i) :
    (w.turn (.user i u) others).Booked i t
      (log ++ [.begins ⟨u.id, w.now, (w.viewOf r u).nextInstance, u.lifecycle⟩]) := by
  have hmem : .user i u ∈ w.actors := hactors.mem_iff.2 (List.mem_cons_self ..)
  refine hw.booked_turn_user h hactors hr ht (User.isEnrolled_of_arrived hphase) hl hissued
    (s := ⟨u.id, w.now, (w.viewOf r u).nextInstance, u.lifecycle⟩) ?_
  constructor
  case about => simp [SessionNote.id]
  case begun => exact mem_starts.2 (List.mem_append_right _ (List.mem_singleton_self _))
  case id => rfl
  case only => simp [starts, SessionNote.start?]
  case same =>
    intro s' hinstance
    simp [User.hasInstance, hphase] at hinstance
  case keeps =>
    intro found
    have hnothing : foundBy u.id
        (log ++ [.begins ⟨u.id, w.now, (w.viewOf r u).nextInstance, u.lifecycle⟩]) = [] := by
      rw [foundBy_append, foundBy_of_ne (h.fresh u hmem hphase)]
      rfl
    rw [Start.ends, hnothing, List.nil_append, ← (hw.template_of_user hr ht hmem).1]
    exact User.keepsTo_arrived hphase found

/-- A user of the run takes its turn. -/
lemma Booked.turn_user (h : w.Booked i t log) (hw : w.Reachable) {u : User σ}
    {others : List (Actor σ)} (hfirst : w.firstReady? w.actors = some (.user i u, others))
    (hr : w.run? i = some r) (ht : w.template? r.template = some t) (huntouched : r.Untouched)
    (hbounded : ∀ s ∈ starts (u.notes (w.viewOf r u)), s.lifecycle ≠ .looped)
    (hissued : w.nextUserId i ≤ (w.turn (.user i u) others).nextUserId i) :
    (w.turn (.user i u) others).Booked i t (log ++ u.notes (w.viewOf r u)) := by
  have hactors := perm_of_firstReady? hfirst
  have hended : u.isEnded = false := (hw.staffed.placed _ (mem_of_firstReady? hfirst)).1
  cases hlaunched : u.isLaunched with
  | true =>
    rw [User.notes_of_isLaunched hlaunched, List.append_nil]
    exact h.turn_launched hr hactors hlaunched hissued
  | false =>
    obtain hphase | hinstance :=
      User.arrived_or_hasInstance (User.isEnrolled_iff.2 ⟨hlaunched, hended⟩)
    · rw [User.notes_of_arrived hphase] at hbounded ⊢
      exact h.turn_arrived hw hactors hr ht hphase
        (hbounded _ (mem_starts.2 (List.mem_singleton_self _))) hissued
    · rw [User.notes_of_hasInstance hinstance]
      exact h.turn_instance hw hfirst hr ht huntouched hinstance hissued

/-- Whatever happens next, the sessions of an untouched run are on time. -/
theorem Booked.next (h : w.Booked i t log) (hw : w.Reachable) {a : Option (Actor σ)}
    (hnext : Happens w a v) (hr : w.run? i = some r) (ht : w.template? r.template = some t)
    (huntouched : r.Untouched)
    (hbounded : ∀ s ∈ starts (w.sessionNotes i a v), s.lifecycle ≠ .looped) :
    v.Booked i t (log ++ w.sessionNotes i a v) := by
  have hissued := hw.nextUserId_happens hnext i
  cases hnext with
  | @acts a others hfirst =>
    by_cases ha : ∃ u, a = .user i u
    · obtain ⟨u, rfl⟩ := ha
      rw [sessionNotes_of_user hr] at hbounded ⊢
      exact h.turn_user hw hfirst hr ht huntouched hbounded hissued
    · have hnot (u : User σ) : a ≠ .user i u := fun heq => ha ⟨u, heq⟩
      rw [sessionNotes_eq_nil fun u heq => hnot u (Option.some.inj heq), List.append_nil]
      exact h.turn_other hw.staffed (perm_of_firstReady? hfirst) hnot hissued
  | @idle now hsettled hnow hdue =>
    have hlater {u : User σ} {ends : List RunView → Millis} (hu : .user i u ∈ w.actors)
        (htime : u.OnTime w.now ends) : u.OnTime now ends := by
      obtain ⟨wakeAt, hwake⟩ := exists_wakeAt_of_settled hsettled hu
      refine ⟨fun t ht => hdue _ hu t ht, htime.bounded, htime.inBounds, fun found => ?_⟩
      rw [(User.endsAt_of_asleep hwake found w.now now).2, htime.endsAt]
    rw [sessionNotes_eq_nil (by simp), List.append_nil]
    refine ⟨fun u hu hinstance => ?_, fun s hs => ?_, h.fresh, h.issued⟩
    · obtain ⟨s, hs, hid, htime⟩ := h.users u hu hinstance
      exact ⟨s, hs, hid, hlater hu htime⟩
    · obtain hover | ⟨u, hu, hinstance, hid, htime⟩ := h.sessions s hs
      · exact .inl fun found => (hover found).trans hnow
      · exact .inr ⟨u, hu, hinstance, hid, hlater hu htime⟩
  | call hmidway hcall =>
    have hold (u : User σ) (hu : .user i u ∈ v.actors) : .user i u ∈ w.actors :=
      (hcall.joins.2 _ hu).resolve_right fun hnew => hnew.1 i u rfl
    rw [sessionNotes_eq_nil (by simp), List.append_nil]
    exact h.of_same hcall.now (fun u _ => ⟨hold u, hcall.joins.1 _⟩)
      (fun u hu _ => .inl (hold u hu)) hissued

end World

end LoadTest
