import LoadTest.Proofs.Stopping
import LoadTest.Proofs.Succession
import Mathlib.Data.List.ReduceOption

/-!
# The watch on a stop signal

Time passes only when nobody is ready, and never past the instant at which someone will be. So the
watch of a run takes its turns at the instants of a regular grid. Until it finds the signal raised
it aborts nobody. Then it aborts everyone within reach, who are all suspended, so that each of them
is dropped at its next turn, which comes at the same instant; and nobody who arrives later gets past
a suspension.
-/

namespace LoadTest

variable {σ : Type}

namespace World

variable {w v : World σ} {i : Nat} {r : Run}

/-! ### The course of time -/

/-- What happens next in a world: the first ready actor takes its turn; or nobody is ready, and time
passes, but not past the instant at which someone will be; or something is asked from outside, while
no user is between two suspensions. -/
inductive Lapse : World σ → World σ → Prop
  | acts {w v : World σ} (hacts : Acts w v) : Lapse w v
  | idle {w : World σ} {now : Millis} (hsettled : w.firstReady? w.actors = none)
      (hnow : w.now ≤ now) (hdue : ∀ a ∈ w.actors, ∀ t, deadline? a = some t → now ≤ t) :
      Lapse w { w with now }
  | call {w v : World σ} (hmidway : ∀ a ∈ w.actors, a.isMidway = false) (hcall : Call w v) :
      Lapse w v

abbrev Lapses : World σ → World σ → Prop := Relation.ReflTransGen Lapse

lemma Reachable.lapses (hw : w.Reachable) (h : Lapses w v) : v.Reachable := by
  induction h with
  | refl => exact hw
  | tail _ hlapse ih =>
    cases hlapse with
    | acts hacts => exact .step ih hacts.step
    | idle hsettled hnow hdue => exact .step ih (.wait hnow)
    | call hmidway hcall => exact .call ih hcall

lemma not_isReady_of_settled {as : List (Actor σ)} (h : w.firstReady? as = none) :
    ∀ a ∈ as, w.isReady a = false := by
  induction as with
  | nil => simp
  | cons b as ih =>
    rw [firstReady?] at h
    split_ifs at h with hb
    intro a ha
    rcases List.mem_cons.1 ha with rfl | ha
    · simpa using hb
    · exact ih (Option.map_eq_none_iff.1 h) a ha

/-- Only users that are asleep do not have a turn. -/
lemma exists_wakeAt_of_settled (hsettled : w.firstReady? w.actors = none) {i : Nat} {u : User σ}
    (hu : .user i u ∈ w.actors) : ∃ t, u.wakeAt? = some t := by
  refine Option.ne_none_iff_exists'.1 fun hnone => ?_
  have hready := not_isReady_of_settled hsettled _ hu
  simp [isReady, hnone] at hready

/-- Only operations that are held do not have a turn. -/
lemma isOver_of_settled (hsettled : w.firstReady? w.actors = none) {o : Operation}
    (ho : .operation o ∈ w.actors) {r : Run} (hr : w.run? o.run = some r) :
    o.hold.isOver w.now r = false := by
  have hready := not_isReady_of_settled hsettled _ ho
  rw [isReady, hr, Option.any_some, Operation.isReady, Bool.or_eq_false_iff] at hready
  exact hready.1

/-- A user that is to arrive has a turn right away. -/
lemma Staffed.arriving_of_settled (hw : w.Staffed) {i : Nat} {r : Run} (hr : w.run? i = some r)
    (hsettled : w.firstReady? w.actors = none) : r.arriving = [] := by
  refine List.eq_nil_iff_forall_not_mem.2 fun ticket hticket => ?_
  obtain ⟨a, ha, hawaited⟩ := List.mem_filterMap.1 ((hw.run _ r hr).awaited.mem_iff.2 hticket)
  cases a with
  | user j u =>
    obtain ⟨⟨-, hlaunched⟩, -⟩ := Option.ite_none_right_eq_some.1 hawaited
    obtain ⟨t, ht⟩ := exists_wakeAt_of_settled hsettled ha
    rw [User.wakeAt?, User.phase_of_isLaunched hlaunched] at ht
    cases ht
  | _ => cases hawaited

/-- The instant at which someone will be ready who is not has yet to come. -/
lemma Staffed.lt_deadline (hw : w.Staffed) {a : Actor σ} (ha : a ∈ w.actors)
    (hready : w.isReady a = false) {t : Millis} (ht : deadline? a = some t) : w.now < t := by
  cases a with
  | user i u =>
    have hwake : u.wakeAt? = some t := ht
    rw [isReady, hwake, Bool.or_eq_false_iff] at hready
    simpa using hready.1
  | operation o =>
    obtain ⟨r, hr⟩ := hw.exists_run ha
    have hplace : w.run? o.run = some r := hr
    rw [isReady, hplace, Option.any_some, Operation.isReady, Bool.or_eq_false_iff] at hready
    have hmem := List.reduceOption_mem_iff.1 (List.min?_mem ht)
    rcases List.mem_cons.1 hmem with hhold | hmem
    · cases hh : o.hold with
      | pause wakeAt =>
        rw [hh] at hhold hready
        cases hhold
        simp only [Hold.isOver, Bool.or_eq_false_iff] at hready
        simpa using hready.1.1
      | clock wakeAt =>
        rw [hh] at hhold hready
        cases hhold
        simpa [Hold.isOver] using hready.1
      | _ =>
        rw [hh] at hhold
        cases hhold
    · have hlimit := List.mem_singleton.1 hmem
      simpa [Operation.isLate, ← hlimit] using hready.2
  | watch i tick =>
    cases ht
    rw [isReady, Bool.or_eq_false_iff] at hready
    simpa using hready.1
  | alarm i due =>
    cases ht
    simpa [isReady] using hready

/-- The next step of a world is what happens next. -/
lemma Staffed.lapse_of_next? (hw : w.Staffed) {limit : Millis} (h : w.next? limit = some v) :
    Lapse w v := by
  rw [next?] at h
  split at h
  next a others hfirst =>
    cases h
    exact .acts (.turn hfirst)
  next hsettled =>
    split at h
    next t ht =>
      split_ifs at h
      cases h
      refine .idle hsettled (Nat.le_max_left _ _) fun a ha t' ht' => Nat.max_le.2 ⟨?_, ?_⟩
      · exact Nat.le_of_lt (hw.lt_deadline ha (not_isReady_of_settled hsettled a ha) ht')
      · exact (List.min?_eq_some_iff.1 ht).2 t' (List.mem_filterMap.2 ⟨a, ha, ht'⟩)
    next => cases h

lemma Reachable.lapses_stepUntil (hw : w.Reachable) (stop : World σ → Bool) (limit : Millis)
    (fuel : Nat) : Lapses w (stepUntil stop limit fuel w) := by
  induction fuel generalizing w with
  | zero => exact .refl
  | succ fuel ih =>
    rw [stepUntil]
    split_ifs
    · exact .refl
    · split
      next v hv =>
        have hlapse := hw.staffed.lapse_of_next? hv
        exact .head hlapse (ih (hw.lapses (.single hlapse)))
      next => exact .refl

lemma Lapses.of_acts (h : Relation.ReflTransGen Acts w v) : Lapses w v :=
  Relation.ReflTransGen.mono (fun _ _ => Lapse.acts) _ _ h

/-- Whoever is in a world stays there through a call, and who joins is neither a user nor the watch
of a run that is there already. -/
lemma Call.joins (h : Call w v) :
    (∀ a ∈ w.actors, a ∈ v.actors) ∧ ∀ a ∈ v.actors, a ∈ w.actors ∨
      ((∀ j u, a ≠ .user j u) ∧ ∀ j t, a = .watch j t → w.run? j = none) := by
  have hsame : v.actors = w.actors → (∀ a ∈ w.actors, a ∈ v.actors) ∧ ∀ a ∈ v.actors,
      a ∈ w.actors ∨ ((∀ j u, a ≠ .user j u) ∧ ∀ j t, a = .watch j t → w.run? j = none) := by
    intro heq
    rw [heq]
    exact ⟨fun _ => id, fun _ => .inl⟩
  cases h with
  | cast b =>
    refine hsame ?_
    rw [World.cast]
    split <;> rfl
  | @openRun template context htemplate =>
    refine ⟨fun a ha => List.mem_append_left _ ha, fun a ha => ?_⟩
    refine (List.mem_append.1 ha).imp_right fun ha => ?_
    rw [List.mem_singleton.1 ha]
    refine ⟨by simp, ?_⟩
    rintro j t ⟨⟩
    exact w.run?_length
  | submit horizon hrun hagenda =>
    refine ⟨fun a ha => List.mem_append_left _ ha, fun a ha => ?_⟩
    refine (List.mem_append.1 ha).imp_right fun ha => ?_
    rw [List.mem_singleton.1 ha]
    exact ⟨by simp, by simp⟩
  | raise i => exact hsame (w.keeps_raise i).actors
  | raiseAt due hrun =>
    refine ⟨fun a ha => List.mem_cons_of_mem _ ha, fun a ha => ?_⟩
    rcases List.mem_cons.1 ha with rfl | ha
    · exact .inr ⟨by simp, by simp⟩
    · exact .inl ha
  | abort i => exact hsame (w.keeps_abort i).actors
  | release i => exact hsame (w.keeps_release i).actors
  | log m => exact hsame rfl

/-! ### Users between two suspensions -/

/-- Only whoever has the next turn may be between two suspensions. -/
def Orderly (w : World σ) : Prop := ∀ a ∈ w.actors.tail, a.isMidway = false

lemma isReady_of_isMidway {a : Actor σ} (h : a.isMidway = true) : w.isReady a = true := by
  cases a with
  | user i u =>
    have hsuspended : u.isSuspended = false := by
      rw [Actor.isMidway, Bool.and_eq_true] at h
      simpa using h.2
    rw [isReady, User.wakeAt?_of_isSuspended hsuspended]
  | _ => cases h

lemma Orderly.others (hw : w.Orderly) {a : Actor σ} {others : List (Actor σ)}
    (hfirst : w.firstReady? w.actors = some (a, others)) : ∀ b ∈ others, b.isMidway = false := by
  cases hactors : w.actors with
  | nil =>
    rw [hactors] at hfirst
    cases hfirst
  | cons c cs =>
    have htail : ∀ b ∈ cs, b.isMidway = false := fun b hb => hw b (by rwa [hactors])
    rw [hactors, firstReady?] at hfirst
    split_ifs at hfirst with hready
    · cases hfirst
      exact htail
    · obtain ⟨⟨b, bs⟩, hb, heq⟩ := Option.map_eq_some_iff.1 hfirst
      cases heq
      obtain ⟨before, after, rfl, rfl, -⟩ := firstReady?_eq_some hb
      intro b hb
      rcases List.mem_cons.1 hb with rfl | hb
      · exact Bool.eq_false_iff.2 fun h => hready (isReady_of_isMidway h)
      · refine htail b ?_
        rcases List.mem_append.1 hb with hb | hb
        · exact List.mem_append_left _ hb
        · exact List.mem_append_right _ (List.mem_cons_of_mem _ hb)

lemma Orderly.of_forall (h : ∀ a ∈ w.actors, a.isMidway = false) : w.Orderly :=
  fun a ha => h a (List.mem_of_mem_tail ha)

lemma Orderly.acts (hw : w.Orderly) (hstaffed : w.Staffed) (hacts : Acts w v) : v.Orderly := by
  cases hacts with
  | @turn a others hfirst =>
    have hothers := hw.others hfirst
    obtain ⟨before, after, hactors, -, -⟩ := firstReady?_eq_some hfirst
    have ha : a ∈ w.actors := by simp [hactors]
    have happend : ∀ users : List (Actor σ), (∀ b ∈ users, w.Launches a b) →
        ∀ b ∈ others ++ users, b.isMidway = false := by
      intro users hnew b hb
      rcases List.mem_append.1 hb with hb | hb
      · exact hothers b hb
      · exact (hnew b hb).isMidway
    cases hstaffed.lineup ha others with
    | leaves users hnew hafter => exact .of_forall (hafter ▸ happend users hnew)
    | stays users hnew hb hgoes hready hafter =>
      rw [Orderly, hafter]
      exact happend users hnew
    | dies hb hsuspended hr haborted hafter =>
      rw [Orderly, hafter]
      exact hothers
    | rests users hnew hb hmidway hafter =>
      refine .of_forall fun c hc => ?_
      rw [hafter] at hc
      rcases List.mem_append.1 hc with hc | hc
      · exact happend users hnew c hc
      · exact List.mem_singleton.1 hc ▸ hmidway

lemma Orderly.lapse (hw : w.Orderly) (hstaffed : w.Staffed) (h : Lapse w v) : v.Orderly := by
  cases h with
  | acts hacts => exact hw.acts hstaffed hacts
  | idle hsettled hnow hdue => exact hw
  | call hmidway hcall =>
    exact .of_forall fun a ha =>
      (hcall.joins.2 a ha).elim (hmidway a) fun h => Actor.isMidway_of_forall_ne h.1

/-! ### What is left of a run -/

lemma Staffed.run_turn (hw : w.Staffed) {a : Actor σ} {others : List (Actor σ)}
    (hactors : w.actors.Perm (a :: others)) (hr : w.run? i = some r) :
    ∃ q, (w.turn a others).run? i = some q ∧ r.Later q ∧ r.Remains q := by
  have ha : a ∈ w.actors := hactors.mem_iff.2 (List.mem_cons_self ..)
  obtain ⟨r', hr'⟩ := hw.exists_run ha
  obtain ⟨new, q', hturn⟩ := hw.replaces hactors hr'
  have hruns : ∀ task ∈ w.tasks, ∃ r, w.run? task.2 = some r := by
    intro task htask
    obtain ⟨b, hb, hbtask⟩ := List.mem_filterMap.1 htask
    cases b with
    | operation o =>
      cases hbtask
      exact hw.exists_run hb
    | _ => cases hbtask
  obtain ⟨q, hq, hlater⟩ := (turned hactors hruns).later.run hr
  refine ⟨q, hq, hlater, ?_⟩
  by_cases hi : i = a.place
  · rw [hi, hr'] at hr
    rw [hi, hturn.run] at hq
    cases hr
    cases hq
    exact hturn.remains
  · rw [hturn.apart.others i hi, hr] at hq
    cases hq
    exact .refl _

lemma Call.run (h : Call w v) (hr : w.run? i = some r) :
    ∃ q, v.run? i = some q ∧ r.Later q ∧ r.Remains q := by
  have hsame : v.run? i = w.run? i → ∃ q, v.run? i = some q ∧ r.Later q ∧ r.Remains q := fun heq =>
    ⟨r, heq.trans hr, .refl r, .refl r⟩
  cases h with
  | cast b =>
    refine hsame ?_
    rw [World.cast]
    split <;> rfl
  | openRun context htemplate =>
    refine hsame ?_
    rw [run?_openRun, if_neg]
    rintro rfl
    exact absurd (w.run?_length.symm.trans hr) (by simp)
  | submit horizon hrun hagenda => exact hsame rfl
  | raise j =>
    by_cases hj : i = j
    · subst hj
      rw [raise_eq hr]
      exact ⟨_, run?_setRun_self hr, r.later_raise, (Run.Alike.raise r).remains⟩
    · exact hsame ((w.apart_raise j).others i hj)
  | raiseAt due hrun => exact hsame rfl
  | abort j =>
    by_cases hj : i = j
    · subst hj
      rw [abort_eq hr]
      exact ⟨_, run?_setRun_self hr, r.later_pool r.pool.later_abortAll, rfl, rfl, id⟩
    · exact hsame ((w.apart_abort j).others i hj)
  | release j =>
    by_cases hj : i = j
    · subst hj
      obtain ⟨q, hq, hfreed⟩ := run?_dropIfFree
        (run?_setRun_self (q := { r with released := true }) hr)
      obtain ⟨q', hq', hlater⟩ := (w.keeps_release i).later.run hr
      have heq : (w.release i).run? i = some q := by
        rw [World.release, hr]
        exact hq
      rw [heq] at hq'
      cases hq'
      have hreleased : r.Remains { r with released := true } := ⟨rfl, rfl, id⟩
      exact ⟨q, heq, hlater, hreleased.trans hfreed.remains⟩
    · exact hsame ((w.apart_release j).others i hj)
  | log m => exact hsame rfl

lemma Call.now (h : Call w v) : v.now = w.now := by
  cases h with
  | cast b =>
    rw [World.cast]
    split <;> rfl
  | raise j => exact (w.apart_raise j).now
  | abort j => exact (w.apart_abort j).now
  | release j => exact (w.apart_release j).now
  | _ => rfl

lemma Reachable.run_lapse (hw : w.Reachable) (h : Lapse w v) (hr : w.run? i = some r) :
    ∃ q, v.run? i = some q ∧ r.Later q ∧ r.Remains q := by
  cases h with
  | acts hacts =>
    cases hacts with
    | turn hfirst =>
      obtain ⟨before, after, hactors, rfl, -⟩ := firstReady?_eq_some hfirst
      exact hw.staffed.run_turn (hactors ▸ List.perm_middle) hr
  | idle hsettled hnow hdue => exact ⟨r, hr, .refl r, .refl r⟩
  | call hmidway hcall => exact hcall.run hr

lemma Reachable.run_lapses (hw : w.Reachable) (h : Lapses w v) (hr : w.run? i = some r) :
    ∃ q, v.run? i = some q ∧ r.Later q ∧ r.Remains q := by
  induction h with
  | refl => exact ⟨r, hr, .refl r, .refl r⟩
  | tail hlapses hlapse ih =>
    obtain ⟨q, hq, hlater, hremains⟩ := ih
    obtain ⟨t, ht, hlater', hremains'⟩ := (hw.lapses hlapses).run_lapse hlapse hq
    exact ⟨t, ht, hlater.trans hlater', hremains.trans hremains'⟩

/-! ### Aborted pools -/

/-- The next turn of a user is its end, at which nothing happens to its session. -/
def Drops (w : World σ) (i : Nat) (u : User σ) : Prop :=
  w.isReady (.user i u) = true ∧
    ∃ r, w.run? i = some r ∧ (w.stepUser r u).isEnded = true ∧ u.events (w.viewOf r u) = []

lemma isEnrolled_of_isSuspended {u : User σ} (h : u.isSuspended = true) : u.isEnrolled = true := by
  revert h
  rw [User.isSuspended, User.isEnrolled, User.isLaunched, User.isEnded]
  cases u.phase <;> simp

/-- In an aborted pool, whoever is suspended is dropped. -/
lemma Reachable.drops (hw : w.Reachable) (hr : w.run? i = some r) (haborted : r.pool.aborted = true)
    {u : User σ} (hu : .user i u ∈ w.actors) (hsuspended : u.isSuspended = true) : w.Drops i u := by
  have hstaffed := hw.staffed.run i r hr
  have hid : u.id ∈ r.pool.ids := by
    refine hstaffed.enrolled.mem_iff.1 (List.mem_filterMap.2 ⟨_, hu, ?_⟩)
    exact if_pos ⟨rfl, isEnrolled_of_isSuspended hsuspended⟩
  have hreached : isAborted r u = true := by
    rw [← Pool.map_id_members] at hid
    obtain ⟨m, hm, hmid⟩ := List.mem_map.1 hid
    rw [isAborted, haborted, Bool.true_and, Pool.find?_eq_find?_members]
    cases hfind : r.pool.members.find? (·.id == u.id) with
    | none => exact absurd hmid (by simpa using List.find?_eq_none.1 hfind m hm)
    | some m' => exact (hstaffed.sound haborted m' (List.mem_of_find?_eq_some hfind)).1
  exact ⟨isReady_of_isAborted hr hreached, r, hr, stepUser_of_isAborted hreached hsuspended⟩

/-- An aborted pool is empty whenever nobody is ready. -/
lemma Reachable.empty_of_settled (hw : w.Reachable) (hr : w.run? i = some r)
    (haborted : r.pool.aborted = true) (hsettled : w.firstReady? w.actors = none) :
    r.pool.live = [] ∧ r.pool.draining = [] := by
  have hids : r.pool.ids = [] := by
    refine List.eq_nil_iff_forall_not_mem.2 fun id hid => ?_
    obtain ⟨a, ha, hid⟩ :=
      List.mem_filterMap.1 ((hw.staffed.run i r hr).enrolled.mem_iff.2 hid)
    have hready := not_isReady_of_settled hsettled a ha
    cases a with
    | user j u =>
      obtain ⟨⟨rfl, henrolled⟩, -⟩ := Option.ite_none_right_eq_some.1 hid
      cases hsuspended : u.isSuspended with
      | true => simp [(hw.drops hr haborted ha hsuspended).1] at hready
      | false => simp [isReady, User.wakeAt?_of_isSuspended hsuspended] at hready
    | _ => cases hid
  obtain ⟨hlive, hdraining⟩ := List.append_eq_nil_iff.1 hids
  exact ⟨List.map_eq_nil_iff.1 hlive, List.map_eq_nil_iff.1 hdraining⟩

/-! ### Ticks -/

/-- The watch of a run that was opened at an instant waits for an instant of the grid that begins
there, at most one period away. Without a watch the run is gone, or its signal has been raised and
everyone aborted. -/
structure Watched (w : World σ) (i : Nat) (since period : Millis) : Prop where
  tick : ∀ t, .watch i t ∈ w.actors →
    (∃ n, t = since + n * period) ∧ w.now ≤ t ∧ t ≤ w.now + period
  run : ∃ r, w.run? i = some r ∧ r.watchPeriod = period ∧
    (r.dropped = true ∨ (∃ t, .watch i t ∈ w.actors) ∨ r.isRaised = true ∧ r.pool.aborted = true)

/-- Nobody but the watch itself takes its place or makes another one. -/
lemma Staffed.mem_watch_turn (hw : w.Staffed) {a : Actor σ} (ha : a ∈ w.actors)
    (hother : ∀ t, a ≠ .watch i t) (others : List (Actor σ)) (t : Millis) :
    .watch i t ∈ (w.turn a others).actors ↔ .watch i t ∈ others := by
  have hnew : ∀ users : List (Actor σ), (∀ b ∈ users, w.Launches a b) →
      .watch i t ∉ users := fun users husers hmem => nomatch husers _ hmem
  have hsucceeds : ∀ b, w.Succeeds a b → Actor.watch i t ≠ b := by
    rintro b hb rfl
    cases hb with
    | watch hr hdropped hraised => exact hother _ rfl
  cases hw.lineup ha others with
  | leaves users husers hafter => simp [hafter, hnew users husers]
  | stays users husers hb hgoes hready hafter =>
    simp [hafter, hnew users husers, hsucceeds _ hb]
  | dies hb hsuspended hr haborted hafter => simp [hafter]
  | rests users husers hb hmidway hafter =>
    simp [hafter, hnew users husers, hsucceeds _ hb]

section Watched

variable {since period : Millis}

/-- The turn of the watch comes at its tick. -/
lemma Watched.tick_eq (h : w.Watched i since period) (hr : w.run? i = some r)
    (hdropped : r.dropped = false) {t : Millis} (ht : .watch i t ∈ w.actors)
    (hready : w.isReady (.watch i t) = true) : t = w.now := by
  refine Nat.le_antisymm ?_ (h.tick t ht).2.1
  simpa [isReady, hr, hdropped] using hready

lemma Watched.acts (h : w.Watched i since period) (hw : w.Staffed) (hacts : Acts w v) :
    v.Watched i since period := by
  cases hacts with
  | @turn a others hfirst =>
    obtain ⟨before, after, hactors, rfl, hready⟩ := firstReady?_eq_some hfirst
    have hperm : w.actors.Perm (a :: (before ++ after)) := hactors ▸ List.perm_middle
    have ha : a ∈ w.actors := hperm.mem_iff.2 (List.mem_cons_self ..)
    have hothers : ∀ t, .watch i t ∈ before ++ after →
        (∃ n, t = since + n * period) ∧ w.now ≤ t ∧ t ≤ w.now + period := fun t ht =>
      h.tick t (hperm.mem_iff.2 (List.mem_cons_of_mem _ ht))
    obtain ⟨r, hr, hperiod, hcases⟩ := h.run
    by_cases hown : ∃ t, a = .watch i t
    · obtain ⟨t, rfl⟩ := hown
      cases hdropped : r.dropped with
      | true =>
        obtain ⟨hrun, heq⟩ := turn_watch_dropped t (before ++ after) hr hdropped
        refine ⟨fun t' ht' => ?_, r, hrun, hperiod, .inl hdropped⟩
        rw [now_of_turn]
        exact hothers t' (heq ▸ ht')
      | false =>
        have htick := h.tick_eq hr hdropped ha hready
        cases hraised : r.isRaised with
        | true =>
          obtain ⟨hrun, heq⟩ := turn_watch_raised t (before ++ after) hr hdropped hraised
          refine ⟨fun t' ht' => ?_, _, hrun, hperiod, .inr (.inr ⟨hraised, rfl⟩)⟩
          rw [now_of_turn]
          exact hothers t' (heq ▸ ht')
        | false =>
          obtain ⟨hrun, heq⟩ := turn_watch_waits t (before ++ after) hr hdropped hraised
          refine ⟨fun t' ht' => ?_, r, hrun, hperiod, .inr (.inl ⟨t + r.watchPeriod, ?_⟩)⟩
          · rw [now_of_turn]
            rw [heq] at ht'
            rcases List.mem_append.1 ht' with ht' | ht'
            · exact hothers t' ht'
            · obtain ⟨⟨n, hn⟩, hle, -⟩ := h.tick t ha
              cases List.mem_singleton.1 ht'
              refine ⟨⟨n + 1, ?_⟩, Nat.le_trans hle (Nat.le_add_right _ _), ?_⟩
              · rw [hn, hperiod, Nat.succ_mul, Nat.add_assoc]
              · exact Nat.le_of_eq (by rw [htick, hperiod])
          · rw [heq]
            exact List.mem_append_right _ (List.mem_singleton_self _)
    · have hmem := hw.mem_watch_turn ha (fun t ht => hown ⟨t, ht⟩) (before ++ after)
      obtain ⟨q, hq, hlater, hremains⟩ := hw.run_turn hperm hr
      refine ⟨fun t ht => ?_, q, hq, hremains.period.trans hperiod, ?_⟩
      · rw [now_of_turn]
        exact hothers t ((hmem t).1 ht)
      · rcases hcases with hdropped | ⟨t, ht⟩ | ⟨hraised, haborted⟩
        · exact .inl (hremains.dropped hdropped)
        · refine .inr (.inl ⟨t, (hmem t).2 ?_⟩)
          exact (List.mem_cons.1 (hperm.mem_iff.1 ht)).resolve_left fun heq => hown ⟨t, heq.symm⟩
        · exact .inr (.inr ⟨hlater.1 hraised, hlater.2.1 haborted⟩)

lemma Watched.call (h : w.Watched i since period) (hcall : Call w v) :
    v.Watched i since period := by
  obtain ⟨r, hr, hperiod, hcases⟩ := h.run
  obtain ⟨q, hq, hlater, hremains⟩ := hcall.run hr
  obtain ⟨hstay, hjoin⟩ := hcall.joins
  refine ⟨fun t ht => ?_, q, hq, hremains.period.trans hperiod, ?_⟩
  · rw [hcall.now]
    refine h.tick t ((hjoin _ ht).resolve_right fun hnew => ?_)
    exact absurd ((hnew.2 i t rfl).symm.trans hr) (by simp)
  · rcases hcases with hdropped | ⟨t, ht⟩ | ⟨hraised, haborted⟩
    · exact .inl (hremains.dropped hdropped)
    · exact .inr (.inl ⟨t, hstay _ ht⟩)
    · exact .inr (.inr ⟨hlater.1 hraised, hlater.2.1 haborted⟩)

lemma Watched.lapse (h : w.Watched i since period) (hw : w.Staffed) (hlapse : Lapse w v) :
    v.Watched i since period := by
  cases hlapse with
  | acts hacts => exact h.acts hw hacts
  | idle hsettled hnow hdue =>
    refine ⟨fun t ht => ?_, h.run⟩
    obtain ⟨hgrid, -, hle⟩ := h.tick t ht
    exact ⟨hgrid, hdue _ ht t rfl, Nat.le_trans hle (Nat.add_le_add_right hnow _)⟩
  | call hmidway hcall => exact h.call hcall

end Watched

lemma Staffed.watched_openRun (hw : w.Staffed) (template : Nat) (context : RunContext) :
    (w.openRun template context).2.Watched w.runs.length w.now (max context.watchInterval 1) := by
  have hnobody : ∀ t, .watch w.runs.length t ∉ w.actors := by
    intro t ht
    have hsome := (hw.placed _ ht).2
    rw [Actor.place, run?_length] at hsome
    cases hsome
  have hwatch : .watch w.runs.length w.now ∈ (w.openRun template context).2.actors :=
    List.mem_append_right _ (List.mem_singleton_self _)
  constructor
  case tick =>
    intro t ht
    rcases List.mem_append.1 ht with ht | ht
    · exact absurd ht (hnobody t)
    · cases List.mem_singleton.1 ht
      exact ⟨⟨0, by simp⟩, Nat.le_refl _, Nat.le_add_right _ _⟩
  case run => exact ⟨_, run?_openRun.trans (if_pos rfl), rfl, .inr (.inl ⟨_, hwatch⟩)⟩

lemma Reachable.watched_lapses (hw : w.Reachable) {since period : Millis}
    (h : w.Watched i since period) (horderly : w.Orderly) (hv : Lapses w v) :
    v.Watched i since period ∧ v.Orderly := by
  induction hv with
  | refl => exact ⟨h, horderly⟩
  | tail hlapses hlapse ih =>
    have hstaffed := (hw.lapses hlapses).staffed
    exact ⟨ih.1.lapse hstaffed hlapse, ih.2.lapse hstaffed hlapse⟩

/-- Once the signal has been raised, time does not pass the tick that the watch waits for before
everyone has been aborted, unless the run is let go of. -/
lemma Reachable.watched_until (hw : w.Reachable) (hr : w.run? i = some r) {t : Millis}
    (hwatch : .watch i t ∈ w.actors) (hnow : w.now ≤ t) (hraised : r.isRaised = true)
    (hv : Lapses w v) :
    ∃ q, v.run? i = some q ∧ q.isRaised = true ∧
      (q.dropped = true ∨ q.pool.aborted = true ∨ .watch i t ∈ v.actors ∧ v.now ≤ t) := by
  induction hv with
  | refl => exact ⟨r, hr, hraised, .inr (.inr ⟨hwatch, hnow⟩)⟩
  | @tail v x hlapses hlapse ih =>
    obtain ⟨q, hq, hraised, hcases⟩ := ih
    have hv := hw.lapses hlapses
    obtain ⟨q', hq', hlater, hremains⟩ := hv.run_lapse hlapse hq
    refine ⟨q', hq', hlater.1 hraised, ?_⟩
    rcases hcases with hdropped | haborted | ⟨hmem, hle⟩
    · exact .inl (hremains.dropped hdropped)
    · exact .inr (.inl (hlater.2.1 haborted))
    · cases hlapse with
      | acts hacts =>
        cases hacts with
        | @turn a others hfirst =>
          obtain ⟨before, after, hactors, rfl, hready⟩ := firstReady?_eq_some hfirst
          have hperm : v.actors.Perm (a :: (before ++ after)) := hactors ▸ List.perm_middle
          by_cases hown : a = .watch i t
          · subst hown
            cases hdropped : q.dropped with
            | true => exact .inl (hremains.dropped hdropped)
            | false =>
              obtain ⟨hrun, -⟩ := turn_watch_raised t (before ++ after) hq hdropped hraised
              rw [hq'] at hrun
              cases hrun
              exact .inr (.inl rfl)
          · have ha : a ∈ v.actors := hperm.mem_iff.2 (List.mem_cons_self ..)
            have hothers : .watch i t ∈ before ++ after :=
              (List.mem_cons.1 (hperm.mem_iff.1 hmem)).resolve_left (Ne.symm hown)
            refine .inr (.inr ⟨(hv.staffed.lineup ha _).mem_of_others hothers, ?_⟩)
            rwa [now_of_turn]
      | idle hsettled hnow' hdue => exact .inr (.inr ⟨hmem, hdue _ hmem t rfl⟩)
      | call hmidway hcall => exact .inr (.inr ⟨hcall.joins.1 _ hmem, hcall.now ▸ hle⟩)

/-! ### The law of the watch -/

/-- A user gets its turn without any time passing before, and is dropped at it. -/
def DropsAtOnce (w : World σ) (i : Nat) (u : User σ) : Prop :=
  ∃ k others, (stepUntil (fun _ => false) w.now k w).now = w.now ∧
    (stepUntil (fun _ => false) w.now k w).firstReady?
        (stepUntil (fun _ => false) w.now k w).actors =
      some (.user i u, others) ∧
    (stepUntil (fun _ => false) w.now k w).Drops i u

/-- From now on, nobody in a run gets past a suspension, and the pool of the run is empty whenever
nobody is ready. -/
def ClearsOut (w : World σ) (i : Nat) : Prop :=
  ∀ v, Lapses w v → ∀ r, v.run? i = some r →
    (v.firstReady? v.actors = none → r.pool.live = [] ∧ r.pool.draining = []) ∧
      ∀ u, .user i u ∈ v.actors → u.isSuspended = true → v.Drops i u

lemma Reachable.clearsOut (hw : w.Reachable) (hr : w.run? i = some r)
    (haborted : r.pool.aborted = true) : w.ClearsOut i := by
  intro v hv q hq
  obtain ⟨q', hq', hlater, -⟩ := hw.run_lapses hv hr
  rw [hq'] at hq
  cases hq
  have haborted' := hlater.2.1 haborted
  exact ⟨(hw.lapses hv).empty_of_settled hq' haborted',
    fun u hu hsuspended => (hw.lapses hv).drops hq' haborted' hu hsuspended⟩

lemma Reachable.dropsAtOnce (hw : w.Reachable) (hr : w.run? i = some r)
    (haborted : r.pool.aborted = true) {u : User σ} (hu : .user i u ∈ w.actors)
    (hsuspended : u.isSuspended = true) : w.DropsAtOnce i u := by
  have hdrops : ∀ v, Relation.ReflTransGen Acts w v → .user i u ∈ v.actors → v.Drops i u := by
    intro v hv hmem
    obtain ⟨q, hq, -⟩ := hw.run_lapses (.of_acts hv) hr
    exact (hw.clearsOut hr haborted v (.of_acts hv) q hq).2 u hmem hsuspended
  obtain ⟨front, back, hactors⟩ := List.append_of_mem hu
  obtain ⟨v, others, hv, hfirst⟩ := hw.exists_turn hactors fun v hv hmem => (hdrops v hv hmem).1
  obtain ⟨before, after, hafter, -, -⟩ := firstReady?_eq_some hfirst
  obtain ⟨k, hk⟩ := exists_stepUntil_of_acts hv
  refine ⟨k, others, ?_⟩
  rw [hk]
  exact ⟨Acts.now hv, hfirst, hdrops v hv (by simp [hafter])⟩

/-- Everyone in a pool is there to act. -/
lemma Staffed.exists_user (hw : w.Staffed) (hr : w.run? i = some r) {m : Member}
    (hm : m ∈ r.pool.members) : ∃ u, u.id = m.id ∧ u.isEnrolled = true ∧ .user i u ∈ w.actors := by
  have hid : m.id ∈ r.pool.ids := Pool.map_id_members r.pool ▸ List.mem_map_of_mem hm
  obtain ⟨a, ha, hid⟩ := List.mem_filterMap.1 ((hw.run i r hr).enrolled.mem_iff.2 hid)
  cases a with
  | user j u =>
    obtain ⟨⟨rfl, henrolled⟩, heq⟩ := Option.ite_none_right_eq_some.1 hid
    exact ⟨u, Option.some.inj heq, henrolled, ha⟩
  | _ => cases hid

/-- When the watch finds the signal raised, everyone in the pool is suspended, and is dropped. -/
lemma Reachable.dropsAtOnce_of_watch (hw : w.Reachable) (horderly : w.Orderly)
    (hr : w.run? i = some r) (hdropped : r.dropped = false) (hraised : r.isRaised = true)
    {t : Millis} {others : List (Actor σ)}
    (hfirst : w.firstReady? w.actors = some (.watch i t, others)) {m : Member}
    (hm : m ∈ r.pool.members) :
    ∃ u, u.id = m.id ∧ .user i u ∈ w.actors ∧ u.isSuspended = true ∧
      (w.turn (.watch i t) others).DropsAtOnce i u := by
  obtain ⟨before, after, hactors, hothers, -⟩ := firstReady?_eq_some hfirst
  obtain ⟨hrun, hafter⟩ := turn_watch_raised t others hr hdropped hraised
  obtain ⟨u, hid, henrolled, hu⟩ := hw.staffed.exists_user hr hm
  have hmem : .user i u ∈ others := by
    have hperm : w.actors.Perm (.watch i t :: others) := by
      rw [hactors, hothers]
      exact List.perm_middle
    exact (List.mem_cons.1 (hperm.mem_iff.1 hu)).resolve_left (by simp)
  -- No user is between two suspensions while the watch has its turn.
  have hsuspended : u.isSuspended = true := by
    have := horderly.others hfirst _ hmem
    simpa [Actor.isMidway, henrolled] using this
  refine ⟨u, hid, hu, hsuspended, ?_⟩
  have hturned : (w.turn (.watch i t) others).Reachable := hw.acts (.single (.turn hfirst))
  refine hturned.dropsAtOnce hrun rfl ?_ hsuspended
  rw [hafter]
  exact hmem

/-- The watch of a run that is opened while no user is between two suspensions, at any later time
until the run is let go of. It waits for an instant of the grid of its period, until it has seen the
signal raised and aborted everyone; once the signal has been raised, time does not pass that
instant before everyone has been aborted. The watch takes its turns at such instants. As long as the
signal is not raised it does nothing but wait for the next one. When it finds the signal raised it
aborts everyone in the pool, live or draining. They are all suspended, and each of them gets its
turn at that same instant and ends by it, without anything more happening to its session. From then
on nobody in the run gets past a suspension, and the pool is empty whenever nobody is ready. -/
theorem Reachable.watch_aborts_everyone (hw : w.Reachable)
    (hmidway : ∀ a ∈ w.actors, a.isMidway = false)
    {template : Nat} {context : RunContext} (htemplate : (w.template? template).isSome)
    (hv : Lapses (w.openRun template context).2 v) (hr : v.run? w.runs.length = some r)
    (hdropped : r.dropped = false) :
    let i := w.runs.length
    let period := max context.watchInterval 1
    ((∃ n, .watch i (w.now + n * period) ∈ v.actors ∧ v.now ≤ w.now + n * period ∧
        w.now + n * period ≤ v.now + period) ∨ r.isRaised = true ∧ r.pool.aborted = true) ∧
    (r.isRaised = true → ∀ t, .watch i t ∈ v.actors → ∀ x, Lapses v x → ∃ q, x.run? i = some q ∧
      (q.dropped = true ∨ q.pool.aborted = true ∨ .watch i t ∈ x.actors ∧ x.now ≤ t)) ∧
    ∀ t others, v.firstReady? v.actors = some (.watch i t, others) →
      t = v.now ∧ (∃ n, t = w.now + n * period) ∧
      (r.isRaised = false →
        v.turn (.watch i t) others = { v with actors := others ++ [.watch i (t + period)] }) ∧
      (r.isRaised = true →
        (v.turn (.watch i t) others).run? i = some { r with pool := r.pool.abortAll.2 } ∧
        (∀ m ∈ r.pool.members, ∃ u, u.id = m.id ∧ .user i u ∈ v.actors ∧ u.isSuspended = true ∧
          (v.turn (.watch i t) others).DropsAtOnce i u) ∧
        (v.turn (.watch i t) others).ClearsOut i) := by
  intro i period
  have hopened : (w.openRun template context).2.Reachable := .call hw (.openRun context htemplate)
  have horderly : (w.openRun template context).2.Orderly := .of_forall fun a ha =>
    ((Call.openRun context htemplate).joins.2 a ha).elim (hmidway a) fun h =>
      Actor.isMidway_of_forall_ne h.1
  have hreachable := hopened.lapses hv
  obtain ⟨hwatched, horderly⟩ :=
    hopened.watched_lapses (hw.staffed.watched_openRun template context) horderly hv
  obtain ⟨r', hr', hperiod, hcases⟩ := hwatched.run
  rw [hr] at hr'
  cases hr'
  refine ⟨?_, fun hraised t ht x hx => ?_, fun t others hfirst => ?_⟩
  · rcases hcases with hgone | ⟨t, ht⟩ | hstopped
    · rw [hdropped] at hgone
      cases hgone
    · obtain ⟨⟨n, rfl⟩, hnow, hle⟩ := hwatched.tick t ht
      exact .inl ⟨n, ht, hnow, hle⟩
    · exact .inr hstopped
  · obtain ⟨q, hq, -, hcases⟩ :=
      hreachable.watched_until hr ht (hwatched.tick t ht).2.1 hraised hx
    exact ⟨q, hq, hcases⟩
  · obtain ⟨before, after, hactors, -, hready⟩ := firstReady?_eq_some hfirst
    have ht : .watch i t ∈ v.actors := by simp [hactors]
    refine ⟨hwatched.tick_eq hr hdropped ht hready, (hwatched.tick t ht).1, fun hraised => ?_,
      fun hraised => ?_⟩
    · have hperiod' : r.watchPeriod = period := hperiod
      rw [← hperiod']
      simp only [turn, show v.run? i = some r from hr, hdropped, hraised, if_neg Bool.false_ne_true]
    · obtain ⟨hrun, -⟩ := turn_watch_raised t others hr hdropped hraised
      have hturned : (v.turn (.watch i t) others).Reachable :=
        hreachable.acts (.single (.turn hfirst))
      exact ⟨hrun,
        fun m hm => hreachable.dropsAtOnce_of_watch horderly hr hdropped hraised hfirst hm,
        hturned.clearsOut hrun rfl⟩

/-! A run of naps that is watched every 100 milliseconds, and whose signal is raised after 30. -/

def napBase : World Unit := (({} : World Unit).cast Controller.nap).2

def napsRaised : World Unit :=
  let w := (napBase.openRun 0 { runId := "1", watchInterval := 100 }).2
  ((w.raiseAt 0 30).submit 0 [.create 2 .looped, .remove 1 .looped] none).2

/-- Nobody has had a turn yet at the tick that sees the signal. -/
def napsAtTick : World Unit := stepUntil (fun w => w.now == 100) 100 100 napsRaised

lemma lapses_napsAtTick :
    Lapses (napBase.openRun 0 { runId := "1", watchInterval := 100 }).2 napsAtTick := by
  have hbase : napBase.Reachable := .call (.empty rfl rfl) (.cast _)
  have hopened : (napBase.openRun 0 { runId := "1", watchInterval := 100 }).2.Reachable :=
    .call hbase (.openRun _ (by decide +kernel))
  have hraised :
      Lapses (napBase.openRun 0 { runId := "1", watchInterval := 100 }).2 napsRaised := by
    refine .tail (.single (.call ?_ (.raiseAt 30 (by decide +kernel))))
      (.call ?_ (.submit none (by decide +kernel) (by decide)))
    · decide +kernel
    · decide +kernel
  exact hraised.trans ((hopened.lapses hraised).lapses_stepUntil _ _ _)

/-- Of two naps, one of which drains, both are dropped as the watch finds the signal raised. -/
theorem watch_of_naps :
    ∃ others, napsAtTick.firstReady? napsAtTick.actors = some (.watch 0 100, others) ∧
      (∀ id ∈ [0, 1], ∃ u, u.id = id ∧ (napsAtTick.turn (.watch 0 100) others).DropsAtOnce 0 u) ∧
      (napsAtTick.turn (.watch 0 100) others).ClearsOut 0 := by
  have hfirst : (napsAtTick.firstReady? napsAtTick.actors).map (fun p =>
      match p.1 with
      | .watch i t => some (i, t)
      | _ => none) = some (some (0, 100)) := by decide +kernel
  have hrun : (napsAtTick.run? 0).map
      (fun r => (r.dropped, r.isRaised, r.pool.members.map Member.id)) =
        some (false, true, [1, 0]) := by decide +kernel
  obtain ⟨⟨a, others⟩, ha, hwatch⟩ := Option.map_eq_some_iff.1 hfirst
  obtain ⟨r, hr, hfacts⟩ := Option.map_eq_some_iff.1 hrun
  simp only [Prod.mk.injEq] at hfacts
  obtain ⟨hdropped, hraised, hids⟩ := hfacts
  have hmidway : ∀ a ∈ napBase.actors, a.isMidway = false := by decide +kernel
  cases a with
  | watch i t =>
    cases hwatch
    obtain ⟨-, -, hturn⟩ :=
      Reachable.watch_aborts_everyone (.call (.empty rfl rfl) (.cast _)) hmidway
        (by decide +kernel) lapses_napsAtTick hr hdropped
    obtain ⟨-, -, -, hstop⟩ := hturn 100 others ha
    obtain ⟨-, hdrops, hclears⟩ := hstop hraised
    refine ⟨others, ha, fun id hid => ?_, hclears⟩
    have hmem : id ∈ r.pool.members.map Member.id := by
      rw [hids]
      exact List.mem_reverse.1 hid
    obtain ⟨m, hm, rfl⟩ := List.mem_map.1 hmem
    obtain ⟨u, hu, -, -, hdrops⟩ := hdrops m hm
    exact ⟨u, hu, hdrops⟩
  | _ => cases hwatch

end World

end LoadTest
