import LoadTest.Proofs.Finishing

/-!
# Waits come to an end

A wait for users that are not looped, in a run that nobody disturbs, returns when the last of their
sessions is to end. Time gets there if everyone else in the world falls asleep sooner or later: at
any instant at which the wait is still open some user of the run is to go on, and none of them goes
on forever.
-/

namespace LoadTest

variable {σ : Type}

/-- The user, if the actor is one of the run at a place. -/
def Actor.userAt? (i : Nat) : Actor σ → Option (User σ)
  | .user j u => if j = i then some u else none
  | _ => none

lemma Actor.eq_of_userAt? {i : Nat} {a : Actor σ} {u : User σ} (h : a.userAt? i = some u) :
    a = .user i u := by
  cases a with
  | user j p =>
    obtain ⟨rfl, rfl⟩ : j = i ∧ p = u := by simpa [userAt?] using h
    rfl
  | _ => cases h

namespace World

variable {w v : World σ} {i : Nat} {r q : Run} {t : Template σ} {log : List SessionNote}

/-! ### All that has begun -/

lemma Reachable.isRunOf_lapses (hw : w.Reachable) (h : Lapses w v) (ht : w.IsRunOf i t) :
    v.IsRunOf i t := by
  induction h with
  | refl => exact ht
  | @tail u v hu hlast ih =>
    have hureach := hw.lapses hu
    cases hlast with
    | acts hacts =>
      cases hacts with
      | turn hfirst => exact hureach.staffed.isRunOf_turn (perm_of_firstReady? hfirst) ih
    | idle => exact ih
    | call _ hcall => exact hcall.isRunOf ih

/-- All sessions of an untouched run are on time, from when there was nobody in it. -/
theorem Reachable.booked {w₀ : World σ} (hw₀ : w₀.Reachable) {r₀ : Run} (hr₀ : w₀.run? i = some r₀)
    (ht₀ : w₀.IsRunOf i t) (hnobody : r₀.pool.members = [])
    (hlog : Chronicle (sessionNotes i) w₀ log w) (hr : w.run? i = some r)
    (huntouched : r.Untouched) (hbounded : ∀ s ∈ starts log, s.lifecycle ≠ .looped) :
    w.Booked i t log := by
  induction hlog generalizing r with
  | refl =>
    have hids : r₀.pool.ids = [] := by rw [← Pool.map_id_members, hnobody, List.map_nil]
    have hnone {u : User σ} (hu : .user i u ∈ w₀.actors) : u.isEnrolled = false := by
      by_contra henrolled
      have hid := hw₀.staffed.mem_ids hr₀ hu (by simpa using henrolled)
      rw [hids] at hid
      cases hid
    refine ⟨fun u hu hinstance => ?_, fun s hs => ?_, fun _ _ _ n hn => ?_, fun n hn => ?_⟩
    · have henrolled := User.isEnrolled_of_hasInstance hinstance
      rw [hnone hu] at henrolled
      cases henrolled
    · cases hs
    · cases hn
    · cases hn
  | @tail u v a log hu hlast ih =>
    have hureach := hw₀.lapses hu.lapses
    obtain ⟨p, hp, ht⟩ := hw₀.isRunOf_lapses hu.lapses ht₀
    obtain ⟨q, hq, hdealings⟩ := hureach.dealings_happens hlast hp
    cases hq.symm.trans hr
    rw [starts_append] at hbounded
    obtain ⟨hbefore, hlater⟩ := List.forall_mem_append.1 hbounded
    have hp' := hdealings.grown.untouched huntouched
    exact (ih hp hp' hbefore).next hureach hlast hp ht hp' hlater

/-- Everyone in the run at a place has an instance. -/
def IsClosed (w : World σ) (i : Nat) : Prop := ∀ u, .user i u ∈ w.actors → u.hasInstance = true

/-- Between turns, everyone has an instance if nobody is to arrive. -/
lemma Staffed.isClosed (hw : w.Staffed) (hr : w.run? i = some r) (harriving : r.arriving = [])
    (hmidway : ∀ a ∈ w.actors, a.isMidway = false) : w.IsClosed i := by
  intro u hu
  have hended := (hw.placed _ hu).1
  have hmidway := hmidway _ hu
  have hlaunched : u.isLaunched = false := by
    by_contra hlaunched
    have hticket := (hw.run i r hr).awaited.mem_iff.1
      (List.mem_filterMap.2 ⟨_, hu, if_pos ⟨rfl, by simpa using hlaunched⟩⟩)
    rw [harriving] at hticket
    cases hticket
  rw [User.hasInstance]
  cases hphase : u.phase <;>
    simp [Actor.isMidway, User.isEnrolled, User.isLaunched, User.isEnded, User.isSuspended,
      Actor.isOver, hphase] at hended hmidway hlaunched ⊢

/-- No session begins if everyone has an instance. -/
lemma IsClosed.starts_eq_nil (h : w.IsClosed i) {a : Option (Actor σ)} (hnext : Happens w a v) :
    starts (w.sessionNotes i a v) = [] := by
  by_cases ha : ∃ u, a = some (.user i u)
  · obtain ⟨u, rfl⟩ := ha
    cases hnext with
    | acts hfirst =>
      have hinstance := h u (mem_of_firstReady? hfirst)
      cases hr : w.run? i with
      | none => simp [sessionNotes, hr, starts]
      | some r => rw [sessionNotes_of_user hr, User.notes_of_hasInstance hinstance, starts_finds]
  · rw [sessionNotes_eq_nil fun u hu => ha ⟨u, hu⟩]
    rfl

lemma Launches.hasInstance {a : Actor σ} {u : User σ} (h : w.Launches a (.user i u)) :
    u.hasInstance = false := by
  cases h
  rfl

/-- Nobody without an instance joins as long as nobody is to arrive. -/
lemma IsClosed.next (h : w.IsClosed i) (hw : w.Reachable) {a : Option (Actor σ)}
    (hnext : Happens w a v) (hq : v.run? i = some q) (harriving : q.arriving = []) :
    v.IsClosed i := by
  intro u hu
  have hv : v.Staffed := (hw.lapses (.single hnext.lapse)).staffed
  cases hnext with
  | @acts a others hfirst =>
    have ha := mem_of_firstReady? hfirst
    obtain ⟨new, hactors, hnew⟩ := (hw.staffed.lineup ha others).perm
    obtain hu' | hu' := List.mem_append.1 (hactors.mem_iff.1 hu)
    · cases hnew _ hu' with
      | inl hsucceeds =>
        cases hsucceeds with
        | user hr hgoes => exact (User.hasInstance_step (h _ ha) _).2 hgoes
      | inr hlaunches =>
        cases hlaunches with
        | user lifecycle ticket hr ht =>
          have hticket := (hv.run _ q hq).awaited.mem_iff.1
            (List.mem_filterMap.2 ⟨_, hu, if_pos ⟨rfl, rfl⟩⟩)
          rw [harriving] at hticket
          cases hticket
    · exact h u ((perm_of_firstReady? hfirst).mem_iff.2 (List.mem_cons_of_mem _ hu'))
  | idle => exact h u hu
  | call hmidway hcall =>
    exact h u ((hcall.joins.2 _ hu).resolve_right fun hnew => hnew.1 i u rfl)

/-! ### The last end -/

/-- A wait is open, and the sessions that it waits for are on time. Time has not passed beyond the
end of some session, whatever its user goes on to find. -/
structure OnCourse (w : World σ) (i : Nat) (t : Template σ) (since : Millis)
    (log : List SessionNote) : Prop where
  booked : w.Booked i t log
  closed : w.IsClosed i
  since_le : since ≤ w.now
  reached : w.now ≤ since ∨ ∃ s ∈ starts log, ∀ found, w.now ≤ s.ends t log found

namespace OnCourse

variable {since : Millis}

lemma now_le (h : w.OnCourse i t since log) : w.now ≤ lastEnd t since log := by
  obtain hle | ⟨s, hs, hle⟩ := h.reached
  · exact hle.trans (le_lastEnd ..)
  · exact (hle []).trans (ends_le_lastEnd since hs)

/-- Everyone is asleep when time passes, and wakes up before the end of its session. -/
lemma exists_asleep (h : w.OnCourse i t since log) (hw : w.Reachable) (hr : w.run? i = some r)
    (hsettled : w.firstReady? w.actors = none) (hlive : r.pool.live ≠ []) :
    ∃ u wakeAt, .user i u ∈ w.actors ∧ u.wakeAt? = some wakeAt ∧
      ∃ s ∈ starts log, ∀ found, wakeAt ≤ s.ends t log found := by
  obtain ⟨m, hm⟩ := List.exists_mem_of_ne_nil _ hlive
  obtain ⟨u, -, -, hu⟩ := hw.staffed.exists_user hr (List.mem_append_left _ hm)
  obtain ⟨s, hs, -, htime⟩ := h.booked.users u hu (h.closed u hu)
  obtain ⟨wakeAt, hwake⟩ := exists_wakeAt_of_settled hsettled hu
  refine ⟨u, wakeAt, hu, hwake, s, hs, fun found => ?_⟩
  rw [← htime.endsAt]
  exact (User.endsAt_of_asleep hwake found w.now w.now).1

/-- Nobody is left in an untouched run in which nobody is live. -/
lemma not_mem_actors (h : w.IsClosed i) (hw : w.Reachable) (hr : w.run? i = some r)
    (huntouched : r.Untouched) (hlive : r.pool.live = []) (u : User σ) :
    .user i u ∉ w.actors := by
  intro hu
  have hid := hw.staffed.mem_ids hr hu (User.isEnrolled_of_hasInstance (h u hu))
  rw [Pool.ids, Pool.liveIds, Pool.drainingIds, hlive,
    (hw.sane hr).draining huntouched.removed] at hid
  cases hid

/-- Once nobody is live, all sessions are over. -/
lemma now_eq (h : w.OnCourse i t since log) (hw : w.Reachable) (hr : w.run? i = some r)
    (huntouched : r.Untouched) (hlive : r.pool.live = []) : w.now = lastEnd t since log := by
  refine Nat.le_antisymm h.now_le (lastEnd_le h.since_le fun s hs => ?_)
  obtain hover | ⟨u, hu, -⟩ := h.booked.sessions s hs
  · exact hover []
  · exact absurd hu (not_mem_actors h.closed hw hr huntouched hlive u)

/-- Whatever happens next, the wait stays on course, or returns at the last end. -/
lemma next {x : Vigil} {seen : List VigilEvent} (h : w.OnCourse x.run t since log)
    (hw : w.Reachable) (hstate : VigilState x w seen) (hopen : w.isOpen x = true)
    {a : Option (Actor σ)} (hnext : Happens w a v) (hr : w.run? x.run = some r)
    (ht : w.template? r.template = some t) (huntouched : r.Untouched) :
    (v.isOpen x = true → ∀ q, v.run? x.run = some q → q.arriving = [] →
        v.OnCourse x.run t since (log ++ w.sessionNotes x.run a v)) ∧
      (v.isOpen x = false → w.sessionNotes x.run a v = [] ∧ v.now = lastEnd t since log) := by
  constructor
  · intro hvopen q hq harriving
    have hstarts := h.closed.starts_eq_nil hnext
    have hsame : starts (log ++ w.sessionNotes x.run a v) = starts log := by
      rw [starts_append, hstarts, List.append_nil]
    have hbooked := h.booked.next hw hnext hr ht huntouched (by simp [hstarts])
    refine ⟨hbooked, h.closed.next hw hnext hq harriving, h.since_le.trans hnext.now_le, ?_⟩
    have hlater {now : Millis} {s : Start} (hle : ∀ found, now ≤ s.ends t log found)
        (found : List RunView) : now ≤ s.ends t (log ++ w.sessionNotes x.run a v) found :=
      Start.ends_append found ▸ hle _
    have hstays (hnow : v.now = w.now) : v.now ≤ since ∨
        ∃ s ∈ starts log, ∀ found, v.now ≤ s.ends t (log ++ w.sessionNotes x.run a v) found := by
      rw [hnow]
      exact h.reached.imp_right fun ⟨s, hs, hle⟩ => ⟨s, hs, hlater hle⟩
    rw [hsame]
    cases hnext with
    | acts hfirst => exact hstays now_of_turn
    | idle hsettled hnow hdue =>
      have hlive : r.pool.live ≠ [] := fun hlive => by
        rw [(hstate.isOpen_of_settled hw hr hsettled).2 hlive] at hopen
        cases hopen
      obtain ⟨u, wakeAt, hu, hwake, s, hs, hle⟩ := h.exists_asleep hw hr hsettled hlive
      exact .inr ⟨s, hs, hlater fun found => (hdue _ hu wakeAt hwake).trans (hle found)⟩
    | call hmidway hcall => exact hstays hcall.now
  · intro hvopen
    obtain ⟨hlive, hnow⟩ := hstate.liveCount_of_return hw hnext hr hopen hvopen
    rw [liveCount_eq hr] at hlive
    have hnobody := List.eq_nil_of_length_eq_zero hlive
    refine ⟨sessionNotes_eq_nil fun u hu => ?_, hnow.trans (h.now_eq hw hr huntouched hnobody)⟩
    subst hu
    cases hnext with
    | acts hfirst =>
      exact not_mem_actors h.closed hw hr huntouched hnobody u (mem_of_firstReady? hfirst)

end OnCourse

/-- A wait is open and on course, in a run that nobody has disturbed. -/
structure Waits (w : World σ) (x : Vigil) (t : Template σ) (since : Millis) (launched : Nat)
    (log : List SessionNote) : Prop where
  reachable : w.Reachable
  isOpen : w.isOpen x = true
  state : ∃ seen, VigilState x w seen
  onCourse : w.OnCourse x.run t since log
  run : ∃ r, w.run? x.run = some r ∧ w.template? r.template = some t ∧ r.arriving = [] ∧
    r.launched = launched ∧ r.Untouched

lemma nextOperation_lapses (h : Lapses w v) : w.nextOperation ≤ v.nextOperation := by
  induction h with
  | refl => exact Nat.le_refl _
  | @tail u v hu hlast ih =>
    refine ih.trans ?_
    cases hlast with
    | acts hacts =>
      cases hacts with
      | turn hfirst => exact Nat.le_of_eq (nextOperation_turn ..).symm
    | idle => exact Nat.le_refl _
    | call _ hcall => exact hcall.operations.2.1

/-- A wait that has returned stays so. -/
lemma Reachable.isOpen_lapses (hw : w.Reachable) {x : Vigil} (hissued : x.id < w.nextOperation)
    (hopen : w.isOpen x = false) (h : Lapses w v) :
    v.isOpen x = false ∧ x.id < v.nextOperation := by
  induction h with
  | refl => exact ⟨hopen, hissued⟩
  | tail hu hlast ih => exact isOpen_lapse (hw.lapses hu).staffed ih.2 ih.1 hlast

namespace Waits

variable {x : Vigil} {since : Millis} {launched : Nat} {before : List SessionNote}

lemma issued (h : w.Waits x t since launched log) : x.id < w.nextOperation :=
  h.state.elim fun _ hstate => hstate.issued

/-- Whatever happens next, a wait goes on as long as nobody disturbs the run. -/
lemma next (h : w.Waits x t since launched log) {a : Option (Actor σ)} (hnext : Happens w a v)
    (hopen : v.isOpen x = true) (hq : v.run? x.run = some q) (hlaunched : q.launched = launched)
    (huntouched : q.Untouched) :
    v.Waits x t since launched (log ++ w.sessionNotes x.run a v) := by
  obtain ⟨seen, hstate⟩ := h.state
  obtain ⟨r, hr, ht, harriving, hsame, huntouched'⟩ := h.run
  obtain ⟨q', hq', hdealings⟩ := h.reachable.dealings_happens hnext hr
  cases hq'.symm.trans hq
  have hlaunched' : q.launched = r.launched := hlaunched.trans hsame.symm
  have harriving' := (hdealings.closed hlaunched' harriving).1
  have hlapses : Lapses w v := .single hnext.lapse
  obtain ⟨q', hq', ht'⟩ := h.reachable.isRunOf_lapses hlapses ⟨r, hr, ht⟩
  cases hq'.symm.trans hq
  exact ⟨h.reachable.lapses hlapses, hopen,
    ⟨_, hstate.next h.reachable hnext hr harriving hq hlaunched'⟩,
    (h.onCourse.next h.reachable hstate h.isOpen hnext hr ht huntouched').1 hopen q hq harriving',
    q, hq, ht', harriving', hlaunched, huntouched⟩

/-- It returns at the last end. -/
lemma now_of_return (h : w.Waits x t since launched log) {a : Option (Actor σ)}
    (hnext : Happens w a v) (hclosed : v.isOpen x = false) :
    w.sessionNotes x.run a v = [] ∧ v.now = lastEnd t since log := by
  obtain ⟨seen, hstate⟩ := h.state
  obtain ⟨r, hr, ht, -, -, huntouched⟩ := h.run
  exact (h.onCourse.next h.reachable hstate h.isOpen hnext hr ht huntouched).2 hclosed

/-- A wait that is open has been so all the time. -/
lemma isOpen_of_lapses (h : w.Waits x t since launched before) {u v : World σ} (hu : Lapses w u)
    (hv : Lapses u v) (hopen : v.isOpen x = true) : u.isOpen x = true := by
  by_contra hnot
  have hureach := h.reachable.lapses hu
  have hissued : x.id < u.nextOperation := Nat.lt_of_lt_of_le h.issued (nextOperation_lapses hu)
  rw [(hureach.isOpen_lapses hissued (by simpa using hnot) hv).1] at hopen
  cases hopen

/-- As long as nobody disturbs the run, a wait that is open is on course. -/
theorem chronicle (h : w.Waits x t since launched before)
    (hv : Chronicle (sessionNotes x.run) w log v) (hopen : v.isOpen x = true)
    (hq : v.run? x.run = some q) (hlaunched : q.launched = launched) (huntouched : q.Untouched) :
    v.Waits x t since launched (before ++ log) := by
  obtain ⟨r, hr, -, -, hsame, -⟩ := h.run
  induction hv generalizing q with
  | refl => simpa using h
  | @tail u v a log hu hlast ih =>
    obtain ⟨p, hp, hbefore⟩ := h.reachable.dealings_lapses hu.lapses hr
    obtain ⟨q', hq', hdealings⟩ := (h.reachable.lapses hu.lapses).dealings_happens hlast hp
    cases hq'.symm.trans hq
    have hlaunched' : p.launched = launched :=
      Nat.le_antisymm (hdealings.grown.launched.trans_eq hlaunched)
        (hsame.symm.trans_le hbefore.grown.launched)
    have huopen := h.isOpen_of_lapses hu.lapses (.single hlast.lapse) hopen
    rw [← List.append_assoc]
    exact (ih huopen hp hlaunched' (hdealings.grown.untouched huntouched)).next hlast hopen hq
      hlaunched huntouched

end Waits

/-! ### Getting there -/

/-- The templates of all runs but the one at a place sleep in their cycles. -/
def SleepsApart (w : World σ) (i : Nat) : Prop :=
  ∀ j q t, j ≠ i → w.run? j = some q → w.template? q.template = some t → t.SleepsInCycles

lemma SleepsApart.step (h : w.SleepsApart i) (hw : w.Staffed) (hstep : Step w v) :
    v.SleepsApart i := by
  cases hstep with
  | wait hnow => exact h
  | @turn a before after hactors hready =>
    have hperm : w.actors.Perm (a :: (before ++ after)) := hactors ▸ List.perm_middle
    intro j q t hj hq ht
    obtain ⟨p, hp⟩ := hw.exists_run_of_turn hperm hq
    obtain ⟨q', hq', hdealings⟩ := hw.dealings_turn hperm hp
    cases hq'.symm.trans hq
    rw [hw.template_turn hperm, hdealings.grown.template] at ht
    exact h j p t hj hp ht

/-- The world after so many steps. -/
abbrev after (w : World σ) (limit : Millis) (n : Nat) : World σ :=
  stepUntil (fun _ => false) limit n w

lemma after_succ (w : World σ) (limit : Millis) (n : Nat) :
    w.after limit (n + 1) = ((w.after limit n).next? limit).getD (w.after limit n) := by
  induction n generalizing w with
  | zero => cases hnext : w.next? limit <;> simp [after, stepUntil, hnext]
  | succ n ih =>
    cases hnext : w.next? limit with
    | none => simp [after, stepUntil, hnext]
    | some v =>
      have hsucc (m : Nat) : w.after limit (m + 1) = v.after limit m := by
        simp [after, stepUntil, hnext]
      rw [hsucc, hsucc, ih]

lemma after_of_rest {limit : Millis} (hrest : w.next? limit = none) (n : Nat) :
    w.after limit n = w := by
  cases n <;> simp [after, stepUntil, hrest]

lemma next?_of_le {limit later : Millis} (hle : limit ≤ later) (h : w.next? limit = some v) :
    w.next? later = some v := by
  rw [next?] at h ⊢
  split at h
  next => exact h
  next =>
    split at h
    next time _ =>
      split_ifs at h with htime
      rw [if_pos (htime.trans hle)]
      exact h
    next => cases h

lemma after_add (w : World σ) (limit : Millis) (m n : Nat) :
    w.after limit (m + n) = (w.after limit m).after limit n := by
  induction n with
  | zero => rfl
  | succ n ih => rw [Nat.add_succ, after_succ, ih, after_succ]

/-- Whoever steps on up to some instant is on the way to later ones. -/
lemma after_of_le (w : World σ) {limit later : Millis} (hle : limit ≤ later) (n : Nat) :
    ∃ k, w.after limit n = w.after later k := by
  induction n with
  | zero => exact ⟨0, rfl⟩
  | succ n ih =>
    obtain ⟨k, hk⟩ := ih
    rw [after_succ]
    cases hnext : (w.after limit n).next? limit with
    | none => exact ⟨k, hk⟩
    | some v =>
      refine ⟨k + 1, ?_⟩
      rw [after_succ, ← hk, next?_of_le hle hnext]

/-- The users in the run at a place. -/
def usersAt (w : World σ) (i : Nat) : Multiset (User σ) := w.actors.filterMap (Actor.userAt? i)

/-- One of some users has gone on, or has ended. -/
abbrev Advances : Multiset (User σ) → Multiset (User σ) → Prop :=
  Lessens (User.GoesOn fun _ => false)

lemma mem_usersAt {u : User σ} : u ∈ w.usersAt i ↔ .user i u ∈ w.actors := by
  rw [usersAt, Multiset.mem_coe, List.mem_filterMap]
  constructor
  · rintro ⟨a, ha, hu⟩
    exact Actor.eq_of_userAt? hu ▸ ha
  · exact fun hu => ⟨_, hu, if_pos rfl⟩

/-- As long as a wait is open, nobody is launched in its run, and nobody disturbs the run. -/
def LeavesAlone (u : World σ) (x : Vigil) (launched : Nat) (limit : Millis) : Prop :=
  ∀ n, (u.after limit n).isOpen x = true →
    ∃ q, (u.after limit n).run? x.run = some q ∧ q.launched = launched ∧ q.Untouched

namespace Waits

variable {u : World σ} {x : Vigil} {since : Millis} {launched : Nat} {before : List SessionNote}
  {limit : Millis}

/-- No user of the run goes on forever. -/
lemma acc_goesOn (h : w.Waits x t since launched log) {p : User σ}
    (hp : .user x.run p ∈ w.actors) {stop : User σ → Bool} : Acc (User.GoesOn stop) p := by
  obtain ⟨s, -, -, htime⟩ := h.onCourse.booked.users p hp (h.onCourse.closed p hp)
  exact User.acc_of_bounded htime.bounded

/-- Nobody in such a world stirs forever at an instant. -/
lemma acc_stirs (h : w.Waits x t since launched log) (hsleeps : w.SleepsApart x.run)
    {a : Actor σ} (ha : a ∈ w.actors) : Acc (Actor.Stirs w.now) a := by
  cases a with
  | user j u =>
    refine Actor.acc_stirs_user ?_ j
    by_cases hj : j = x.run
    · subst hj
      exact h.acc_goesOn ha
    · obtain ⟨t', ⟨q, hq, ht'⟩, hof⟩ := h.reachable.isOf ha
      exact hof.acc (hsleeps j q t' hj hq ht')
  | operation o => exact Actor.acc_stirs_operation o
  | watch j tick => exact Actor.acc_stirs_watch j tick
  | alarm j due => exact Acc.intro _ fun _ h => by cases h

/-- Nobody is launched in the run. -/
lemma stirs_of_launches (h : v.Waits x t since launched log) (hsleeps : w.SleepsApart x.run)
    {a b : Actor σ} (hlaunches : w.Launches a b) (hb : b ∈ v.actors) : b.Stirs w.now a := by
  cases hlaunches with
  | @user o r t' lifecycle ticket hr ht =>
    by_cases ho : o.run = x.run
    · rw [ho] at hb
      cases h.onCourse.closed _ hb
    · exact .launched (hsleeps o.run r t' ho hr ht) lifecycle ticket

/-- At rest, some user of the run is to go on before the last end. -/
lemma exists_asleep (h : w.Waits x t since launched log) (hrest : w.next? limit = none) :
    ∃ p ∈ w.usersAt x.run, ∃ wakeAt, p.wakeAt? = some wakeAt ∧ limit < wakeAt ∧
      wakeAt ≤ lastEnd t since log := by
  obtain ⟨seen, hstate⟩ := h.state
  obtain ⟨r, hr, -⟩ := h.run
  obtain ⟨hsettled, hdue⟩ := h.reachable.staffed.settled_of_next? hrest
  have hlive : r.pool.live ≠ [] := fun hlive => by
    have hclosed := (hstate.isOpen_of_settled h.reachable hr hsettled).2 hlive
    rw [h.isOpen] at hclosed
    cases hclosed
  obtain ⟨p, wakeAt, hp, hwake, s, hs, hle⟩ :=
    h.onCourse.exists_asleep h.reachable hr hsettled hlive
  exact ⟨p, mem_usersAt.2 hp, wakeAt, hwake, hdue _ hp wakeAt hwake,
    (hle []).trans (ends_le_lastEnd since hs)⟩

/-- By the next step of a world some user of the run has gone on, or none of them has. -/
lemma usersAt_next (h : w.Waits x t since launched log) (hv : v.IsClosed x.run)
    (hnext : w.next? limit = some v) :
    v.usersAt x.run = w.usersAt x.run ∨ Advances (v.usersAt x.run) (w.usersAt x.run) := by
  have hw := h.reachable.staffed
  cases step_of_next? hnext with
  | wait hnow => exact .inl rfl
  | @turn a front back hactors hready =>
    have hperm : w.actors.Perm (a :: (front ++ back)) := hactors ▸ List.perm_middle
    have ha : a ∈ w.actors := hperm.mem_iff.2 (List.mem_cons_self ..)
    obtain ⟨new, hafter, hnew⟩ := (hw.lineup ha (front ++ back)).perm
    have hbefore := hperm.filterMap (Actor.userAt? x.run)
    have hafter' := hafter.filterMap (Actor.userAt? x.run)
    rw [List.filterMap_append] at hafter'
    -- Only what is left of a user of the run is new among them.
    have hleft {p : User σ} (hp : p ∈ new.filterMap (Actor.userAt? x.run)) :
        ∃ u, a = .user x.run u ∧ User.GoesOn (fun _ => false) p u := by
      obtain ⟨b, hb, hbp⟩ := List.mem_filterMap.1 hp
      obtain rfl := Actor.eq_of_userAt? hbp
      cases hnew _ hb with
      | inl hsucceeds =>
        cases hsucceeds with
        | user hr hgoes => exact ⟨_, rfl, _, rfl, hgoes, rfl⟩
      | inr hlaunches =>
        have hinstance := hv p (hafter.mem_iff.2 (List.mem_append_left _ hb))
        rw [hlaunches.hasInstance] at hinstance
        cases hinstance
    cases hmine : a.userAt? x.run with
    | none =>
      have hnone : new.filterMap (Actor.userAt? x.run) = [] := by
        refine List.eq_nil_iff_forall_not_mem.2 fun p hp => ?_
        obtain ⟨u, rfl, -⟩ := hleft hp
        simp [Actor.userAt?] at hmine
      rw [hnone, List.nil_append] at hafter'
      rw [List.filterMap_cons_none hmine] at hbefore
      exact .inl (Multiset.coe_eq_coe.2 (hafter'.trans hbefore.symm))
    | some u =>
      obtain rfl := Actor.eq_of_userAt? hmine
      rw [List.filterMap_cons_some hmine] at hbefore
      refine .inr (lessens_of_perm (h.acc_goesOn ha) hbefore hafter' ?_)
      intro p hp
      obtain ⟨u', heq, hgoes⟩ := hleft hp
      cases heq
      exact hgoes

lemma reachable_after (h : u.Waits x t since launched before) (limit : Millis) (n : Nat) :
    (u.after limit n).Reachable :=
  h.reachable.lapses (h.reachable.lapses_stepUntil _ _ _)

/-- As long as the wait is open it is on course. -/
lemma after (h : u.Waits x t since launched before) (halone : u.LeavesAlone x launched limit)
    {n : Nat} (hopen : (u.after limit n).isOpen x = true) :
    (u.after limit n).Waits x t since launched
      (before ++ noted (sessionNotes x.run) limit n u) := by
  obtain ⟨q, hq, hlaunched, huntouched⟩ := halone n hopen
  have hnow : Chronicle (sessionNotes x.run) u [] u := .refl u
  have hlog := hnow.steps h.reachable limit n
  rw [List.nil_append] at hlog
  exact h.chronicle hlog hopen hq hlaunched huntouched

/-- A wait that is open after some steps was so before them. -/
lemma isOpen_of_later (h : u.Waits x t since launched before) {n m : Nat}
    (hopen : (u.after limit (n + m)).isOpen x = true) : (u.after limit n).isOpen x = true := by
  rw [after_add] at hopen
  exact h.isOpen_of_lapses (h.reachable.lapses_stepUntil _ _ _)
    ((h.reachable_after limit n).lapses_stepUntil _ _ _) hopen

/-- The first time that it is not, it has returned at the last end. -/
lemma exists_return (h : u.Waits x t since launched before)
    (halone : u.LeavesAlone x launched limit)
    (hclosed : ∃ n, (u.after limit n).isOpen x = false) :
    ∃ n, (u.after limit n).isOpen x = false ∧ (u.after limit n).now =
      lastEnd t since (before ++ noted (sessionNotes x.run) limit n u) := by
  cases hfind : Nat.find hclosed with
  | zero =>
    have hzero := Nat.find_spec hclosed
    rw [hfind, show u.after limit 0 = u from rfl, h.isOpen] at hzero
    cases hzero
  | succ n =>
    have hafter := hfind ▸ Nat.find_spec hclosed
    have hlt : n < Nat.find hclosed := by
      rw [hfind]
      exact Nat.lt_succ_self n
    have hbefore : (u.after limit n).isOpen x = true := by simpa using Nat.find_min hclosed hlt
    refine ⟨n + 1, hafter, ?_⟩
    have hwaits := h.after halone hbefore
    cases hnext : (u.after limit n).next? limit with
    | none =>
      rw [after_succ, hnext, Option.getD_none, hbefore] at hafter
      cases hafter
    | some v =>
      rw [after_succ, hnext, Option.getD_some] at hafter ⊢
      obtain ⟨hnotes, hnow⟩ :=
        hwaits.now_of_return (hwaits.reachable.staffed.happens_of_next? hnext) hafter
      rw [noted_succ hnext, hnotes, List.append_nil]
      exact hnow

/-- In a world in which everybody else falls asleep sooner or later, the wait returns, or everybody
has had their turn up to an instant. -/
lemma returns_or_rests (h : u.Waits x t since launched before) (hsleeps : u.SleepsApart x.run)
    (halone : u.LeavesAlone x launched limit) :
    ∃ n, (u.after limit n).isOpen x = false ∨ (u.after limit n).next? limit = none := by
  by_contra hnever
  have hopen (n : Nat) : (u.after limit n).isOpen x = true := by
    by_contra hnot
    exact hnever ⟨n, .inl (by simpa using hnot)⟩
  let P : World σ → Prop := fun w => w.SleepsApart x.run ∧ ∃ n, w = u.after limit n
  have hacc : ∀ w, P w → ∀ a ∈ w.actors, Acc (Actor.Stirs w.now) a := by
    rintro _ ⟨hsleeps, n, rfl⟩ a ha
    exact (h.after halone (hopen n)).acc_stirs hsleeps ha
  refine rest_induction limit (Q := fun _ => False) hacc ?_ ?_ (fun _ _ _ _ h => h)
    ⟨hsleeps, 0, rfl⟩
  · rintro _ v ⟨hsleeps, n, rfl⟩ hnext
    have hstaffed := (h.reachable_after limit n).staffed
    have hsucc : v = u.after limit (n + 1) := by
      rw [after_succ, hnext, Option.getD_some]
    refine ⟨⟨hsleeps.step hstaffed (step_of_next? hnext), n + 1, hsucc⟩, ?_⟩
    refine hstaffed.calms_or_passes (hacc _ ⟨hsleeps, n, rfl⟩) ?_ hnext
    subst hsucc
    intro a b hlaunches hb
    exact (h.after halone (hopen (n + 1))).stirs_of_launches hsleeps hlaunches hb
  · rintro _ ⟨-, n, rfl⟩ hrest
    exact hnever ⟨n, .inr hrest⟩

/-- While some steps are taken, users of the run go on or none of them does. -/
lemma usersAt_after (h : u.Waits x t since launched before)
    (halone : u.LeavesAlone x launched limit) (n m : Nat)
    (hopen : (u.after limit (n + m)).isOpen x = true) :
    Relation.ReflTransGen Advances ((u.after limit (n + m)).usersAt x.run)
      ((u.after limit n).usersAt x.run) := by
  induction m with
  | zero => exact .refl
  | succ m ih =>
    have hbefore : (u.after limit (n + m)).isOpen x = true :=
      h.isOpen_of_later (m := 1) (by rwa [Nat.add_assoc])
    refine .trans ?_ (ih hbefore)
    have hclosed := (h.after halone hopen).onCourse.closed
    rw [← Nat.add_assoc, after_succ] at hclosed ⊢
    cases hnext : (u.after limit (n + m)).next? limit with
    | none => exact .refl
    | some v =>
      rw [hnext, Option.getD_some] at hclosed
      rw [Option.getD_some]
      obtain hsame | hless := (h.after halone hbefore).usersAt_next hclosed hnext
      · rw [hsame]
      · exact .single hless

/-- After everybody has had their turn, the wait returns or some user of the run goes on. -/
lemma returns_or_goesOn (h : u.Waits x t since launched before) (hsleeps : u.SleepsApart x.run)
    (halone : ∀ limit, u.LeavesAlone x launched limit) {n : Nat}
    (hopen : (u.after limit n).isOpen x = true) (hrest : (u.after limit n).next? limit = none) :
    ∃ later m, (u.after later m).isOpen x = false ∨
      (u.after later m).next? later = none ∧
        Relation.TransGen Advances ((u.after later m).usersAt x.run)
          ((u.after limit n).usersAt x.run) := by
  obtain ⟨p, hp, wakeAt, hwake, hlt, -⟩ := (h.after (halone limit) hopen).exists_asleep hrest
  obtain ⟨k, hk⟩ := u.after_of_le (Nat.le_of_lt hlt) n
  obtain ⟨m, hm⟩ := h.returns_or_rests hsleeps (halone wakeAt)
  obtain hclosed | hlater := hm
  · exact ⟨wakeAt, m, .inl hclosed⟩
  have hstays : u.after wakeAt (k + m) = u.after wakeAt m := by
    rw [Nat.add_comm, after_add, after_of_rest hlater]
  refine ⟨wakeAt, k + m, ?_⟩
  cases hopen' : (u.after wakeAt (k + m)).isOpen x with
  | false => exact .inl rfl
  | true =>
    have hgoes := h.usersAt_after (halone wakeAt) k m hopen'
    rw [← hk] at hgoes
    refine .inr ⟨by rw [hstays, hlater], ?_⟩
    obtain hsame | hless := Relation.reflTransGen_iff_eq_or_transGen.1 hgoes
    · -- The user that was to wake up by then would still be asleep.
      have hp' : p ∈ (u.after wakeAt m).usersAt x.run := by
        rw [← hstays, ← hsame]
        exact hp
      obtain ⟨-, hdue⟩ := (h.reachable_after wakeAt m).staffed.settled_of_next? hlater
      exact absurd (hdue _ (mem_usersAt.1 hp') wakeAt hwake) (Nat.lt_irrefl _)
    · exact hless

/-- As no user of the run goes on forever, the wait returns. -/
lemma exists_isOpen_eq_false (h : u.Waits x t since launched before)
    (hsleeps : u.SleepsApart x.run) (halone : ∀ limit, u.LeavesAlone x launched limit) :
    ∃ limit n, (u.after limit n).isOpen x = false := by
  obtain ⟨n, hclosed | hrest⟩ := h.returns_or_rests hsleeps (halone u.now)
  · exact ⟨_, n, hclosed⟩
  generalize u.now = limit at hrest
  by_contra hnever
  have hopen (limit : Millis) (n : Nat) : (u.after limit n).isOpen x = true := by
    by_contra hnot
    exact hnever ⟨limit, n, by simpa using hnot⟩
  have hacc : Acc (Relation.TransGen Advances) ((u.after limit n).usersAt x.run) := by
    have hwaits := h.after (halone limit) (hopen limit n)
    exact (acc_lessens fun p hp => hwaits.acc_goesOn (mem_usersAt.1 hp)).transGen
  generalize husers : (u.after limit n).usersAt x.run = users at hacc
  induction hacc generalizing limit n with
  | intro users _ ih =>
    subst husers
    obtain ⟨later, m, hclosed | ⟨hrest', hless⟩⟩ :=
      h.returns_or_goesOn hsleeps halone (hopen limit n) hrest
    · exact hnever ⟨later, m, hclosed⟩
    · exact ih _ hless m later hrest' rfl

end Waits

/-! ### The law of natural ends -/

/-- A run that nobody has disturbed once the wait has returned has been left alone. -/
lemma leavesAlone_of_returned {u : World σ} {x : Vigil} {limit : Millis} (hu : u.Reachable)
    (hr : u.run? x.run = some r) (hissued : x.id < u.nextOperation) {n : Nat}
    (hclosed : (u.after limit n).isOpen x = false) (hq : (u.after limit n).run? x.run = some q)
    (hlaunched : q.launched = r.launched) (huntouched : q.Untouched) (later : Millis) :
    u.LeavesAlone x r.launched later := by
  intro m hopen
  have hlapses (w : World σ) (hw : w.Reachable) (limit : Millis) (k : Nat) :
      Lapses w (w.after limit k) := hw.lapses_stepUntil _ _ _
  obtain ⟨k, hk⟩ := u.after_of_le (Nat.le_max_left limit later) n
  obtain ⟨l, hl⟩ := u.after_of_le (Nat.le_max_right limit later) m
  have hm := hlapses u hu later m
  have hbefore : Lapses (u.after later m) (u.after limit n) := by
    rw [hl, hk]
    obtain hle | hle := Nat.le_total l k
    · obtain ⟨d, rfl⟩ := Nat.exists_eq_add_of_le hle
      rw [after_add]
      exact hlapses _ (hl ▸ hu.lapses hm) _ d
    · obtain ⟨d, rfl⟩ := Nat.exists_eq_add_of_le hle
      have hn := hlapses u hu limit n
      have hissued' := Nat.lt_of_lt_of_le hissued (nextOperation_lapses hn)
      rw [hl, after_add, ← hk, ((hu.lapses hn).isOpen_lapses hissued' hclosed
        (hlapses _ (hu.lapses hn) _ d)).1] at hopen
      cases hopen
  obtain ⟨p, hp, hfirst⟩ := hu.dealings_lapses hm hr
  obtain ⟨q', hq', hlast⟩ := (hu.lapses hm).dealings_lapses hbefore hp
  cases hq'.symm.trans hq
  exact ⟨p, hp, Nat.le_antisymm (hlast.grown.launched.trans_eq hlaunched) hfirst.grown.launched,
    hlast.grown.untouched huntouched⟩

/-- From now on a wait returns when the last session is to end, as long as nobody disturbs the run.
When that is depends on what can be seen of the sessions by then. -/
structure ReturnsAt (u : World σ) (x : Vigil) (launched : Nat) (ends : List SessionNote → Millis) :
    Prop where
  time : ∀ log v v' a q, Chronicle (sessionNotes x.run) u log v → v.isOpen x = true →
    v.run? x.run = some q → q.launched = launched → q.Untouched → Happens v a v' →
    v'.isOpen x = false → v'.now = ends log
  /-- Suppose that the users of all other runs fall asleep sooner or later. Then up to any instant
  it returns, or everybody has their turn and the last session is to end later. -/
  within : u.SleepsApart x.run → ∀ limit, u.LeavesAlone x launched limit → ∃ n,
    (u.after limit n).isOpen x = false ∧
        (u.after limit n).now = ends (noted (sessionNotes x.run) limit n u) ∨
      (u.after limit n).isOpen x = true ∧ (u.after limit n).next? limit = none ∧
        limit < ends (noted (sessionNotes x.run) limit n u)
  /-- It does return at some instant then. -/
  returns : u.SleepsApart x.run → (∀ limit, u.LeavesAlone x launched limit) → ∃ limit n,
    (u.after limit n).isOpen x = false ∧
      (u.after limit n).now = ends (noted (sessionNotes x.run) limit n u)

lemma Waits.returnsAt {u : World σ} {x : Vigil} {since : Millis} {launched : Nat}
    {before : List SessionNote} (h : u.Waits x t since launched before) :
    u.ReturnsAt x launched fun log => lastEnd t since (before ++ log) where
  time _ _ _ _ _ hlog hopen hq hlaunched huntouched hnext hclosed :=
    ((h.chronicle hlog hopen hq hlaunched huntouched).now_of_return hnext hclosed).2
  within hsleeps limit halone := by
    obtain ⟨n, hn⟩ := h.returns_or_rests hsleeps halone
    cases hopen : (u.after limit n).isOpen x with
    | false =>
      obtain ⟨n, hreturn⟩ := h.exists_return halone ⟨n, hopen⟩
      exact ⟨n, .inl hreturn⟩
    | true =>
      have hrest := hn.resolve_left (by simp [hopen])
      obtain ⟨p, -, wakeAt, -, hlt, hle⟩ := (h.after halone hopen).exists_asleep hrest
      exact ⟨n, .inr ⟨hopen, hrest, Nat.lt_of_lt_of_le hlt hle⟩⟩
  returns hsleeps halone := by
    obtain ⟨limit, n, hclosed⟩ := h.exists_isOpen_eq_false hsleeps halone
    exact ⟨limit, h.exists_return (halone limit) ⟨n, hclosed⟩⟩

/-- A call that waits for everyone to finish, while nobody is to arrive in its run. Whatever happens
from then on, as long as no more users are launched, it returns at the first instant at which nobody
is live once everybody has had their turn, whoever drains by then. Suppose that the run has had no
looped users, and that nobody is removed or aborted and its signal is not raised. Then the wait
returns at the instant of the call, or when the last session of a user is to end if that is later.
A session takes as long as its set-up, its cycles and its tear-down take with what its user finds
whenever it looks at the run, whether they succeed, fail or panic. The wait does return if the users
of all other runs fall asleep sooner or later. -/
theorem Reachable.wait_for_all (hw : w.Reachable) {x : Vigil} {o : Operation}
    {others : List (Actor σ)} (ho : w.UnderWay o others) (hx : o.Keeps x)
    (hagenda : o.agenda = .waitForAll :: x.rest) (hhold : o.hold = .free)
    (hr : w.run? x.run = some r) (harriving : r.arriving = []) :
    w.WaitsForAll x r.launched ∧
      ∀ w₀ r₀ before t, w₀.Reachable → w₀.run? x.run = some r₀ → r₀.pool.members = [] →
        Chronicle (sessionNotes x.run) w₀ before w → w.template? r.template = some t →
        (∀ a ∈ w.actors, a.isMidway = false) → r.Untouched →
        (∀ s ∈ starts before, s.lifecycle ≠ .looped) →
          w.ReturnsAt x r.launched fun log => lastEnd t w.now (before ++ log) := by
  have hstate : VigilState x w [] := .asked ho hx hagenda hhold
  refine ⟨waitsForAll_of_state hw hstate hr harriving, ?_⟩
  intro w₀ r₀ before t hw₀ hr₀ hnobody hbefore ht hmidway huntouched hbounded
  have ht₀ : w₀.IsRunOf x.run t := by
    obtain ⟨t₀, ht₀⟩ := Option.isSome_iff_exists.1 (hw₀.staffed.template _ _ hr₀)
    obtain ⟨r', hr', ht'⟩ := hw₀.isRunOf_lapses hbefore.lapses ⟨r₀, hr₀, ht₀⟩
    cases hr'.symm.trans hr
    cases ht'.symm.trans ht
    exact ⟨r₀, hr₀, ht₀⟩
  have honCourse : w.OnCourse x.run t w.now before :=
    ⟨hw₀.booked hr₀ ht₀ hnobody hbefore hr huntouched hbounded,
      hw.staffed.isClosed hr harriving hmidway, Nat.le_refl _, .inl (Nat.le_refl _)⟩
  have hopen : w.isOpen x = true := hstate.isOpen_eq.1
  exact Waits.returnsAt
    ⟨hw, hopen, ⟨_, hstate⟩, honCourse, r, hr, ht, harriving, rfl, huntouched⟩

/-! Two naps and a user that naps twice, who joins them later. -/

/-- The template of the naps. -/
def napping : Template Unit where
  toBehavior := Controller.nap
  first := { name := "nap", run := fun s => .sleep 60000 (.finish s none) }
  others := []
  tasks_eq := rfl
  weight_pos t ht := by
    rw [List.mem_singleton.1 ht]
    exact Nat.one_pos

def napsAlone : World Unit := (napBase.openRun 0 { runId := "1", watchInterval := 1000000 }).2

def napsAsked : World Unit :=
  (napsAlone.submit 0 [.create 2 .regular, .delay 30000, .create 1 (.cycled 2)] none).2

/-- All of them are napping. -/
def napsJoined : World Unit := napsAsked.after 40000 100

def napsAwaited : World Unit := (napsJoined.submit 0 [.waitForAll] none).2

/-- The sessions that have begun by then. -/
def napsNoted : List SessionNote :=
  [.begins ⟨0, 0, 0, .regular⟩, .begins ⟨1, 0, 1, .regular⟩, .begins ⟨2, 30000, 2, .cycled 2⟩]

lemma chronicle_napsAwaited :
    napsAlone.Reachable ∧ napsJoined.Reachable ∧
      Chronicle (sessionNotes 0) napsAlone napsNoted napsAwaited := by
  have hbase : napsAlone.Reachable :=
    .call (.call (.empty rfl rfl) (.cast Controller.nap)) (.openRun _ (by decide +kernel))
  have hcall : Call napsAlone napsAsked :=
    .submit none (by decide +kernel) (by simp [Errand.isCount])
  have hasked : napsAsked.Reachable := .call hbase hcall
  have hjoined : napsJoined.Reachable := hasked.lapses (hasked.lapses_stepUntil _ _ _)
  refine ⟨hbase, hjoined, ?_⟩
  have hnotes : noted (sessionNotes 0) 40000 100 napsAsked = napsNoted := by
    decide +kernel
  have hbegin := (Chronicle.refl napsAlone : Chronicle (sessionNotes 0) napsAlone [] napsAlone).tail
    (.call (by decide +kernel) hcall)
  have hsteps := hbegin.steps hasked 40000 100
  rw [hnotes] at hsteps
  have hwait : Call napsJoined napsAwaited :=
    .submit none (by decide +kernel) (by simp [Errand.isCount])
  exact hsteps.tail (.call (by decide +kernel) hwait)

/-- A wait for three naps, of which the last one is the second one of its user. -/
theorem wait_for_naps :
    napsAwaited.WaitsForAll ⟨1, 0, []⟩ 3 ∧
      napsAwaited.ReturnsAt ⟨1, 0, []⟩ 3
        (fun log => lastEnd napping napsAwaited.now (napsNoted ++ log)) ∧
      ∃ n, (napsAwaited.after 150000 n).isOpen ⟨1, 0, []⟩ = false ∧
        (napsAwaited.after 150000 n).now = 150000 := by
  obtain ⟨halone, hjoined, hnotes⟩ := chronicle_napsAwaited
  have hcall : Call napsJoined napsAwaited :=
    .submit none (by decide +kernel) (by simp [Errand.isCount])
  have hawaited : napsAwaited.Reachable := .call hjoined hcall
  have hunderWay := underWay_submit hjoined (by decide +kernel) 0 [.waitForAll]
  obtain ⟨r, hr, hlaunched, htemplate, harriving, huntouched⟩ :
      ∃ r, napsAwaited.run? 0 = some r ∧ r.launched = 3 ∧ r.template = 0 ∧ r.arriving = [] ∧
        r.Untouched :=
    ⟨_, rfl, by decide +kernel, by decide +kernel, by decide +kernel, by decide +kernel,
      by decide +kernel, by decide +kernel⟩
  have ht : napsAwaited.template? r.template = some napping := htemplate ▸ rfl
  obtain ⟨hwaits, hreturns⟩ := hawaited.wait_for_all (x := ⟨1, 0, []⟩) hunderWay
    ⟨by decide +kernel, rfl, rfl, rfl⟩ rfl rfl hr harriving
  have hreturns := hreturns napsAlone _ _ _ halone rfl rfl hnotes ht (by decide +kernel)
    huntouched (by decide)
  have hapart : napsAwaited.SleepsApart 0 := by
    intro j q t hj hq
    have hlength : napsAwaited.runs.length ≤ j := by
      have hone : napsAwaited.runs.length = 1 := by decide +kernel
      rw [hone]
      exact Nat.pos_of_ne_zero hj
    rw [run?, List.getElem?_eq_none hlength] at hq
    cases hq
  obtain ⟨q, hq, hlaunched', huntouched'⟩ : ∃ q, (napsAwaited.after 150000 30).run? 0 = some q ∧
      q.launched = 3 ∧ q.Untouched :=
    ⟨_, rfl, by decide +kernel, by decide +kernel, by decide +kernel, by decide +kernel⟩
  have hleft := leavesAlone_of_returned (x := ⟨1, 0, []⟩) hawaited hr (by decide +kernel)
    (by decide +kernel) hq (hlaunched'.trans hlaunched.symm) huntouched' 150000
  -- Nobody looks at the run, so that it is known from the beginning when the last nap is over.
  have hrest : (napsAwaited.after 150000 30).next? 150000 = none :=
    Option.isNone_iff_eq_none.1 (by decide +kernel)
  have hends (n : Nat) : lastEnd napping napsAwaited.now
      (napsNoted ++ noted (sessionNotes 0) 150000 n napsAwaited) = 150000 := by
    rw [noted_eq_nil hrest (by decide +kernel) n]
    decide +kernel
  rw [hlaunched] at hwaits hreturns hleft
  refine ⟨hwaits, hreturns, ?_⟩
  obtain ⟨n, ⟨hclosed, hnow⟩ | ⟨-, -, hlt⟩⟩ := hreturns.within hapart 150000 hleft
  · exact ⟨n, hclosed, hnow.trans (hends n)⟩
  · exact absurd hlt (Nat.not_lt.2 (Nat.le_of_eq (hends n)))

/-- A user that pauses for thirty years and a second after its task has ended a second early. -/
theorem long_pause_ends_early :
    let visits : Behavior Unit :=
      { Controller.nap with
        name := "b"
        taskSet :=
          { tasks :=
              [{ name := "visit", delayAfter := 946080001000, run := fun s => .finish s none }] } }
    let w := ((({} : World Unit).cast visits).2.openRun 0
      { runId := "1", watchInterval := 1000000000000000 }).2
    let v := stepUntil (fun v => (v.outcome? 0).isSome) 2000000000000 100
      (w.submit 0 [.create 1 .regular, .waitForAll] none).2
    v.outcome? 0 = some .done ∧ v.now ≠ 0 + 946080001000 := by
  decide +kernel

end World

end LoadTest
