import LoadTest.Proofs.OperationTurns

/-!
# Users and pools agree

Whatever happens in a world, the users within reach of the pool of a run are those that have entered
it and whose task goes on, and the users that are to arrive are those that have been launched and
not taken a step yet.
-/

namespace LoadTest

variable {σ : Type}

/-! ### Actors of a run -/

/-- The place of the run that an actor acts on behalf of. -/
def Actor.place : Actor σ → Nat
  | .user i _ => i
  | .operation o => o.run
  | .watch i _ => i
  | .alarm i _ => i

/-- The id of a user in the pool of the run at a place. -/
def Actor.enrolled? (i : Nat) : Actor σ → Option UserId
  | .user j u => if j = i ∧ u.isEnrolled then some u.id else none
  | _ => none

/-- The ticket of a user that is to arrive in the run at a place. -/
def Actor.ticket? (i : Nat) : Actor σ → Option Nat
  | .user j u => if j = i ∧ u.isLaunched then some u.ticket else none
  | _ => none

/-- Has the actor's task ended? -/
def Actor.isOver : Actor σ → Bool
  | .user _ u => u.isEnded
  | _ => false

lemma Actor.enrolled?_of_place {i : Nat} {a : Actor σ} (h : a.place ≠ i) :
    a.enrolled? i = none := by
  cases a with
  | user j u => exact if_neg fun hi => h hi.1
  | _ => rfl

lemma Actor.ticket?_of_place {i : Nat} {a : Actor σ} (h : a.place ≠ i) : a.ticket? i = none := by
  cases a with
  | user j u => exact if_neg fun hi => h hi.1
  | _ => rfl

def enrolledIds (i : Nat) (as : List (Actor σ)) : List UserId := as.filterMap (Actor.enrolled? i)

def awaitedTickets (i : Nat) (as : List (Actor σ)) : List Nat := as.filterMap (Actor.ticket? i)

lemma enrolledIds_append (i : Nat) (as bs : List (Actor σ)) :
    enrolledIds i (as ++ bs) = enrolledIds i as ++ enrolledIds i bs := List.filterMap_append

lemma awaitedTickets_append (i : Nat) (as bs : List (Actor σ)) :
    awaitedTickets i (as ++ bs) = awaitedTickets i as ++ awaitedTickets i bs :=
  List.filterMap_append

lemma enrolledIds_of_place {i : Nat} {as : List (Actor σ)} (h : ∀ a ∈ as, a.place ≠ i) :
    enrolledIds i as = [] :=
  List.filterMap_eq_nil_iff.2 fun a ha => Actor.enrolled?_of_place (h a ha)

lemma awaitedTickets_of_place {i : Nat} {as : List (Actor σ)} (h : ∀ a ∈ as, a.place ≠ i) :
    awaitedTickets i as = [] :=
  List.filterMap_eq_nil_iff.2 fun a ha => Actor.ticket?_of_place (h a ha)

/-! ### Runs -/

/-- The pool of a run and the users among some actors agree. -/
structure Run.Staffed (r : Run) (i : Nat) (as : List (Actor σ)) : Prop where
  enrolled : (enrolledIds i as).Perm r.pool.ids
  awaited : (awaitedTickets i as).Perm r.arriving
  nodup : r.pool.ids.Nodup
  lt : ∀ id ∈ r.pool.ids, id < r.pool.nextId
  arriving : r.arriving.Nodup
  launched : ∀ t ∈ r.arriving, t < r.launched
  sound : r.pool.Sound

namespace Run.Staffed

variable {r q : Run} {i : Nat} {as bs : List (Actor σ)}

/-- The users may act as long as nobody enters or leaves the pool. -/
lemma stay (h : r.Staffed i as) (henrolled : (enrolledIds i bs).Perm (enrolledIds i as))
    (hawaited : (awaitedTickets i bs).Perm (awaitedTickets i as))
    (harriving : q.arriving = r.arriving) (hlaunched : q.launched = r.launched)
    (hids : q.pool.ids.Perm r.pool.ids) (hnext : q.pool.nextId = r.pool.nextId)
    (hlater : r.pool.Later q.pool) : q.Staffed i bs where
  enrolled := henrolled.trans (h.enrolled.trans hids.symm)
  awaited := harriving ▸ hawaited.trans h.awaited
  nodup := hids.nodup_iff.2 h.nodup
  lt id hid := hnext ▸ h.lt id (hids.mem_iff.1 hid)
  arriving := harriving ▸ h.arriving
  launched t ht := hlaunched ▸ h.launched t (harriving ▸ ht)
  sound := hlater.2 h.sound

lemma alike (h : r.Staffed i as) (hq : r.Alike q) : q.Staffed i as := by
  obtain ⟨-, shared, rfl⟩ := hq
  exact h.stay (.refl _) (.refl _) rfl rfl (.refl _) rfl (.refl _)

lemma freed (h : r.Staffed i as) (hq : r.Freed q) : q.Staffed i as := by
  rcases hq with rfl | ⟨pool, rfl | rfl, rfl⟩
  · exact h
  · exact h.stay (.refl _) (.refl _) rfl rfl (.refl _) rfl (.refl _)
  · exact h.stay (.refl _) (.refl _) rfl rfl (.of_eq (Pool.ids_abortAll _)) rfl
      (Pool.later_abortAll _)

lemma of_perm (h : r.Staffed i as) (hperm : bs.Perm as) : r.Staffed i bs :=
  h.stay (hperm.filterMap _) (hperm.filterMap _) rfl rfl (.refl _) rfl (.refl _)

/-- A user arrives. -/
lemma arrive {u u' : User σ} (h : r.Staffed i (.user i u :: as)) (hlaunched : u.isLaunched = true)
    (henrolled : u'.isEnrolled = true) (hid : u'.id = r.pool.nextId) (mode : Mode) :
    Run.Staffed
      { r with
        pool := r.pool.issueId.2.register { id := r.pool.nextId, mode }
        arriving := r.arriving.erase u.ticket } i (.user i u' :: as) := by
  have hbefore : enrolledIds i (.user i u :: as) = enrolledIds i as :=
    List.filterMap_cons_none (if_neg (by simp [User.isEnrolled, hlaunched]))
  have hticket : awaitedTickets i (.user i u :: as) = u.ticket :: awaitedTickets i as :=
    List.filterMap_cons_some (if_pos ⟨rfl, hlaunched⟩)
  have hafter : enrolledIds i (.user i u' :: as) = r.pool.nextId :: enrolledIds i as :=
    List.filterMap_cons_some ((if_pos ⟨rfl, henrolled⟩).trans (congrArg some hid))
  have hnolonger : awaitedTickets i (.user i u' :: as) = awaitedTickets i as := by
    refine List.filterMap_cons_none (if_neg fun hi => ?_)
    simp [User.isEnrolled, hi.2] at henrolled
  have hawaited := h.awaited
  have hids := r.pool.issueId.2.ids_register { id := r.pool.nextId, mode }
  rw [hticket] at hawaited
  exact
    { enrolled := by
        rw [hafter]
        exact ((hbefore ▸ h.enrolled).cons _).trans hids.symm
      awaited := by
        rw [hnolonger]
        simpa using hawaited.erase u.ticket
      nodup := by
        refine hids.nodup_iff.2 (List.nodup_cons.2 ⟨fun hmem => ?_, h.nodup⟩)
        exact Nat.lt_irrefl _ (h.lt _ hmem)
      lt := by
        intro id hid'
        rcases List.mem_cons.1 (hids.mem_iff.1 hid') with rfl | hmem
        · exact Nat.lt_succ_self _
        · exact Nat.lt_succ_of_lt (h.lt id hmem)
      arriving := h.arriving.erase _
      launched := fun t ht => h.launched t (List.mem_of_mem_erase ht)
      sound := (r.pool.later_issueId.trans (Pool.later_register _ _)).2 h.sound }

/-- A user leaves. -/
lemma leave {u : User σ} (h : r.Staffed i (.user i u :: as)) (henrolled : u.isEnrolled = true) :
    Run.Staffed { r with pool := r.pool.deregister u.id } i as := by
  have hbefore : enrolledIds i (.user i u :: as) = u.id :: enrolledIds i as :=
    List.filterMap_cons_some (if_pos ⟨rfl, henrolled⟩)
  have hticket : awaitedTickets i (.user i u :: as) = awaitedTickets i as := by
    refine List.filterMap_cons_none (if_neg fun hi => ?_)
    simp [User.isEnrolled, hi.2] at henrolled
  have hperm := h.enrolled
  rw [hbefore] at hperm
  have hnodup : (u.id :: enrolledIds i as).Nodup := hperm.nodup_iff.2 h.nodup
  have hids : (r.pool.deregister u.id).ids = r.pool.ids.filter (· != u.id) :=
    Pool.ids_deregister h.nodup u.id
  have hnext := r.pool.nextId_deregister u.id
  exact
    { enrolled := by
        show (enrolledIds i as).Perm (r.pool.deregister u.id).ids
        rw [hids]
        refine List.Perm.trans (.of_eq ?_) (hperm.filter (· != u.id))
        rw [List.filter_cons_of_neg (by simp), filter_ne_of_not_mem (List.nodup_cons.1 hnodup).1]
      awaited := hticket ▸ h.awaited
      nodup := hids ▸ h.nodup.filter _
      lt := fun id hid => hnext ▸ h.lt id (List.mem_of_mem_filter (hids ▸ hid))
      arriving := h.arriving
      launched := h.launched
      sound := (r.pool.later_deregister u.id).2 h.sound }

/-- Users are launched. -/
lemma launch {amount : Nat} (h : r.Staffed i as)
    (henrolled : (enrolledIds i bs).Perm (enrolledIds i as))
    (hawaited : (awaitedTickets i bs).Perm (awaitedTickets i as ++ (r.launch amount).1)) :
    (r.launch amount).2.Staffed i bs where
  enrolled := henrolled.trans h.enrolled
  awaited := hawaited.trans (h.awaited.append_right _)
  nodup := h.nodup
  lt := h.lt
  arriving := by
    refine List.nodup_append'.2 ⟨h.arriving, List.nodup_range', fun t ht ht' => ?_⟩
    have hlt := h.launched t ht
    have hle := (List.mem_range'_1.1 ht').1
    omega
  launched t ht := by
    show t < r.launched + amount
    rcases List.mem_append.1 ht with ht | ht
    · have := h.launched t ht
      omega
    · exact (List.mem_range'_1.1 ht).2
  sound := h.sound

end Run.Staffed

/-! ### Operations -/

namespace Run.Staffed

variable {r : Run} {i : Nat} {as bs : List (Actor σ)}

lemma performed {e : Errand} {result : Errand.Result} (h : r.Staffed i as)
    (hresult : e.Performed r result) (henrolled : (enrolledIds i bs).Perm (enrolledIds i as))
    (hawaited : (awaitedTickets i bs).Perm (awaitedTickets i as ++ tickets result.acts)) :
    result.run.Staffed i bs := by
  have hstay : tickets result.acts = [] → (awaitedTickets i bs).Perm (awaitedTickets i as) :=
    fun hacts => by rwa [hacts, List.append_nil] at hawaited
  cases hresult with
  | create hraised hrun hnext hhold hacts houtcome =>
    rw [hacts, tickets_launch] at hawaited
    exact hrun ▸ h.launch henrolled hawaited
  | count hrun hnext hhold hacts houtcome =>
    exact hrun ▸ h.stay henrolled (hstay hacts) rfl rfl (.refl _) rfl (.refl _)
  | @remove amount mode _ hraised hrun hnext hhold hacts houtcome =>
    have hids := Pool.ids_update (f := Member.requestStop) (fun _ => rfl)
      (r.pool.take amount mode).2 (r.pool.takenIds amount mode)
    rw [hrun]
    exact h.stay henrolled (hstay hacts) rfl rfl
      ((List.Perm.of_eq hids).trans (r.pool.ids_take _ _))
      rfl ((r.pool.later_take amount mode).trans (Pool.later_requestStop _ _))
  | abort hrun hnext hhold hacts houtcome =>
    exact hrun ▸ h.stay henrolled (hstay hacts) rfl rfl (.of_eq (Pool.ids_abortAll _)) rfl
      (Pool.later_abortAll _)
  | raise hrun hnext hhold hacts =>
    exact hrun ▸ h.stay henrolled (hstay hacts) rfl rfl (.refl _) rfl (.refl _)
  | idle hcount hrun hnext hhold hacts hremove =>
    exact hrun ▸ h.stay henrolled (hstay hacts) rfl rfl (.refl _) rfl (.refl _)

lemma stepped {o : Operation} {now : Millis} (h : r.Staffed i as)
    (henrolled : (enrolledIds i bs).Perm (enrolledIds i as))
    (hawaited : (awaitedTickets i bs).Perm
      (awaitedTickets i as ++ tickets (o.step now r).2.2)) : (o.step now r).1.Staffed i bs := by
  have hstepped := o.stepped now r
  generalize o.step now r = next at hstepped hawaited
  cases hstepped with
  | givesUp hhold =>
    exact h.stay henrolled (by simpa [tickets] using hawaited) rfl rfl (.refl _) rfl (.refl _)
  | ends hhold hagenda =>
    exact h.stay henrolled (by simpa [tickets] using hawaited) rfl rfl (.refl _) rfl (.refl _)
  | performs hhold hagenda hgoes hends =>
    exact h.performed (Errand.performed _ _ _) henrolled hawaited

end Run.Staffed

/-- A run is of the same template and watched as often as before, and is not taken up again. -/
structure Run.Remains (r q : Run) : Prop where
  template : q.template = r.template
  period : q.watchPeriod = r.watchPeriod
  dropped : r.dropped = true → q.dropped = true

lemma Run.Remains.refl (r : Run) : r.Remains r := ⟨rfl, rfl, id⟩

lemma Run.Remains.trans {r q t : Run} (hrq : r.Remains q) (hqt : q.Remains t) : r.Remains t :=
  ⟨hqt.template.trans hrq.template, hqt.period.trans hrq.period, hqt.dropped ∘ hrq.dropped⟩

lemma Errand.Performed.remains {r : Run} {e : Errand} {result : Result} (h : e.Performed r result) :
    r.Remains result.run := by
  cases h with
  | create hraised hrun => exact hrun ▸ ⟨rfl, rfl, id⟩
  | count hrun => exact hrun ▸ ⟨rfl, rfl, id⟩
  | remove hraised hrun => exact hrun ▸ ⟨rfl, rfl, id⟩
  | abort hrun => exact hrun ▸ ⟨rfl, rfl, id⟩
  | raise hrun => exact hrun ▸ ⟨rfl, rfl, id⟩
  | idle hcount hrun => exact hrun ▸ .refl r

lemma Operation.remains_step (o : Operation) (now : Millis) (r : Run) :
    r.Remains (o.step now r).1 := by
  have hstepped := o.stepped now r
  generalize o.step now r = next at hstepped
  cases hstepped with
  | givesUp hhold => exact .refl r
  | ends hhold hagenda => exact .refl r
  | performs hhold hagenda hgoes hends => exact (Errand.performed _ _ _).remains

lemma Run.Freed.remains {r q : Run} (h : r.Freed q) : r.Remains q := by
  rcases h with rfl | ⟨pool, -, rfl⟩
  · exact .refl _
  · exact ⟨rfl, rfl, fun _ => rfl⟩

lemma Run.Alike.remains {r q : Run} (h : r.Alike q) : r.Remains q := by
  obtain ⟨-, shared, rfl⟩ := h
  exact ⟨rfl, rfl, id⟩

namespace World

variable {w v : World σ} {i : Nat} {r : Run}

lemma mem_newcomers {acts : List Act} {a : Actor σ} (h : a ∈ w.newcomers i r acts) :
    ∃ t ticket lifecycle, w.template? r.template = some t ∧ .launch ticket lifecycle ∈ acts ∧
      a = .user i { template := t, lifecycle, ticket } := by
  obtain ⟨act, hact, ha⟩ := List.mem_flatMap.1 h
  unfold launched at ha
  split at ha
  next ticket lifecycle c hc =>
    refine ⟨c.template, ticket, lifecycle, ?_, hact, List.mem_singleton.1 ha⟩
    rw [template?, hc, Option.map_some]
  next => exact absurd ha List.not_mem_nil

lemma enrolledIds_newcomers (w : World σ) (i j : Nat) (r : Run) (acts : List Act) :
    enrolledIds j (w.newcomers i r acts) = [] := by
  refine List.filterMap_eq_nil_iff.2 fun a ha => ?_
  obtain ⟨t, ticket, lifecycle, -, -, rfl⟩ := mem_newcomers ha
  exact if_neg fun h => absurd h.2 (by simp [User.isEnrolled, User.isLaunched])

lemma awaitedTickets_newcomers {acts : List Act} (ht : (w.template? r.template).isSome) :
    awaitedTickets i (w.newcomers i r acts) = tickets acts := by
  obtain ⟨t, ht⟩ := Option.isSome_iff_exists.1 ht
  obtain ⟨c, hc, rfl⟩ := Option.map_eq_some_iff.1 ht
  induction acts with
  | nil => rfl
  | cons act acts ih =>
    have hcons : w.newcomers i r (act :: acts) = w.launched i r act ++ w.newcomers i r acts :=
      List.flatMap_cons
    rw [hcons, awaitedTickets_append, ih]
    cases act with
    | launch ticket lifecycle =>
      simp [launched, hc, awaitedTickets, Actor.ticket?, User.isLaunched, tickets, Act.ticket?]
    | _ => simp [launched, awaitedTickets, tickets, Act.ticket?, List.filterMap_cons]

/-! ### Turns of watches and alarms -/

lemma apart_turn_watch {tick : Millis} {others : List (Actor σ)} :
    Apart i w (w.turn (.watch i tick) others) := by
  cases hr : w.run? i with
  | none =>
    simp only [turn, hr]
    exact .of_runs rfl rfl rfl
  | some r =>
    simp only [turn, hr]
    split_ifs
    · exact .of_runs rfl rfl rfl
    · refine Apart.trans ?_
        ((Apart.setRun { w with actors := others } i _).trans (apart_log _ _ ""))
      exact .of_runs rfl rfl rfl
    · exact .of_runs rfl rfl rfl

/-- The watch on a dropped run ends. -/
lemma turn_watch_dropped (tick : Millis) (others : List (Actor σ)) (hr : w.run? i = some r)
    (hdropped : r.dropped = true) :
    (w.turn (.watch i tick) others).run? i = some r ∧
      (w.turn (.watch i tick) others).actors = others := by
  simp only [turn, hr, hdropped, if_true]
  exact ⟨hr, trivial⟩

/-- The watch that finds the signal raised aborts everyone, and ends. -/
lemma turn_watch_raised (tick : Millis) (others : List (Actor σ)) (hr : w.run? i = some r)
    (hdropped : r.dropped = false) (hraised : r.isRaised = true) :
    (w.turn (.watch i tick) others).run? i = some { r with pool := r.pool.abortAll.2 } ∧
      (w.turn (.watch i tick) others).actors = others := by
  simp only [turn, hr, hdropped, hraised, if_neg Bool.false_ne_true, if_true]
  exact ⟨run?_setRun_self (w := { w with actors := others }) hr, rfl⟩

/-- Otherwise the watch leaves the run alone, and looks again after a period. -/
lemma turn_watch_waits (tick : Millis) (others : List (Actor σ)) (hr : w.run? i = some r)
    (hdropped : r.dropped = false) (hraised : r.isRaised = false) :
    (w.turn (.watch i tick) others).run? i = some r ∧
      (w.turn (.watch i tick) others).actors = others ++ [.watch i (tick + r.watchPeriod)] := by
  simp only [turn, hr, hdropped, hraised, if_neg Bool.false_ne_true]
  exact ⟨hr, trivial⟩

lemma apart_turn_alarm {due : Millis} {others : List (Actor σ)} :
    Apart i w (w.turn (.alarm i due) others) := by
  cases hr : w.run? i with
  | none =>
    simp only [turn, hr]
    exact .of_runs rfl rfl rfl
  | some r =>
    simp only [turn, hr]
    refine Apart.trans ?_ (Apart.setRun { w with actors := others } i _)
    exact .of_runs rfl rfl rfl

lemma turn_alarm (due : Millis) (others : List (Actor σ)) (hr : w.run? i = some r) :
    (w.turn (.alarm i due) others).run? i = some r.raise.2 ∧
      (w.turn (.alarm i due) others).actors = others := by
  simp only [turn, hr]
  exact ⟨run?_setRun_self (w := { w with actors := others }) hr, rfl⟩

/-! ### Every turn -/

/-- Who is left of a turn: actors of the same run, which stand for the one whose turn it was. -/
structure Replaces (w v : World σ) (a : Actor σ) (others new : List (Actor σ)) (r q : Run) :
    Prop where
  apart : Apart a.place w v
  actors : v.actors.Perm (new ++ others)
  place : ∀ b ∈ new, b.place = a.place ∧ b.isOver = false
  run : v.run? a.place = some q
  remains : r.Remains q
  staffed : r.Staffed a.place (a :: others) → q.Staffed a.place (new ++ others)

lemma replaces_user {u : User σ} {others : List (Actor σ)} (hr : w.run? i = some r)
    (hended : u.isEnded = false) :
    ∃ new q, Replaces w (w.turn (.user i u) others) (.user i u) others new r q := by
  cases hlaunched : u.isLaunched with
  | true =>
    obtain ⟨hrun, hactors⟩ := turn_launched others hr hlaunched
    refine ⟨[.user i { u with id := r.pool.nextId, phase := .arrived }], _, apart_turn_user,
      .of_eq hactors, by simp [Actor.place, Actor.isOver, User.isEnded], hrun, ⟨rfl, rfl, id⟩,
      fun h => ?_⟩
    exact h.arrive hlaunched rfl rfl u.lifecycle.mode
  | false =>
    have hcarries := User.carries_step (w.viewOf r u) hlaunched hended
    have hu : u.isEnrolled = true := User.isEnrolled_iff.2 ⟨hlaunched, hended⟩
    cases hends : (w.stepUser r u).isEnded with
    | true =>
      obtain ⟨q, hrun, hq, -, hactors⟩ := turn_ends others hr hlaunched hended hends
      obtain ⟨-, shared, rfl⟩ := hq
      refine ⟨[], _, apart_turn_user, .of_eq hactors, by simp, hrun, ⟨rfl, rfl, id⟩, fun h => ?_⟩
      exact (h.leave hu).stay (.refl _) (.refl _) rfl rfl (.refl _) rfl (.refl _)
    | false =>
      obtain ⟨q, hrun, hq, -, hactors⟩ := turn_goesOn others hr hlaunched hended hends
      refine ⟨[.user i (w.stepUser r u)], q, apart_turn_user, ?_, ?_, hrun, hq.remains, fun h => ?_⟩
      · rw [hactors]
        split_ifs
        · exact List.perm_append_singleton _ _
        · exact .refl _
      · simpa [Actor.place, Actor.isOver] using hends
      · have hid : (w.stepUser r u).id = u.id := hcarries.id
        have hafter : (w.stepUser r u).isEnrolled = true := by
          simp [User.isEnrolled, hends, show (w.stepUser r u).isLaunched = false from
            hcarries.isLaunched]
        refine (h.stay (.of_eq ?_) (.of_eq ?_) rfl rfl (.refl _) rfl (.refl _)).alike hq
        · simp [enrolledIds, Actor.enrolled?, Actor.place, hu, hafter, hid]
        · simp [awaitedTickets, Actor.ticket?, hlaunched, show (w.stepUser r u).isLaunched = false
            from hcarries.isLaunched]

lemma replaces_operation {o : Operation} {others : List (Actor σ)} (hr : w.run? o.run = some r)
    (ht : (w.template? r.template).isSome) :
    ∃ new q, Replaces w (w.turn (.operation o) others) (.operation o) others new r q := by
  have hremains := o.remains_step w.now r
  have hrun := (o.later_step w.now r).2.2
  have hnew : ∀ b ∈ w.newcomers o.run (o.step w.now r).1 (o.step w.now r).2.2,
      b.place = o.run ∧ b.isOver = false := by
    intro b hb
    obtain ⟨t, ticket, lifecycle, -, -, rfl⟩ := mem_newcomers hb
    exact ⟨rfl, rfl⟩
  have hstaffed : ∀ as : List (Actor σ), enrolledIds o.run as = [] → awaitedTickets o.run as = [] →
      r.Staffed o.run (.operation o :: others) → (o.step w.now r).1.Staffed o.run
        (as ++ w.newcomers o.run (o.step w.now r).1 (o.step w.now r).2.2 ++ others) := by
    intro as has has' h
    refine h.stepped (.of_eq ?_) ?_
    · rw [enrolledIds_append, enrolledIds_append, enrolledIds_newcomers, has]
      rfl
    · rw [awaitedTickets_append, awaitedTickets_append,
        awaitedTickets_newcomers (hremains.template ▸ ht), has']
      exact List.perm_append_comm
  cases hended : (o.step w.now r).2.1.isEnded with
  | true =>
    obtain ⟨q, hq, hfreed, hactors, -⟩ := turn_operation_ends others hr hended
    refine ⟨_, q, apart_turn_operation, ?_, hnew, hq, hremains.trans hfreed.remains, fun h => ?_⟩
    · rw [hactors]
      exact List.perm_append_comm
    · exact (hstaffed [] rfl rfl h).freed hfreed
  | false =>
    obtain ⟨hq, hactors, -⟩ := turn_operation_goesOn others hr hended
    refine ⟨.operation (o.step w.now r).2.1 :: w.newcomers o.run (o.step w.now r).1
      (o.step w.now r).2.2, _, apart_turn_operation, ?_, ?_, hq, hremains, fun h => ?_⟩
    · rw [hactors]
      split_ifs
      · exact (List.perm_append_comm).cons _
      · exact (List.perm_append_singleton _ _).trans (List.perm_append_comm.cons _)
    · intro b hb
      rcases List.mem_cons.1 hb with rfl | hb
      · exact ⟨hrun, rfl⟩
      · exact hnew b hb
    · exact hstaffed [.operation (o.step w.now r).2.1] rfl rfl h

lemma replaces_watch {tick : Millis} {others : List (Actor σ)} (hr : w.run? i = some r) :
    ∃ new q, Replaces w (w.turn (.watch i tick) others) (.watch i tick) others new r q := by
  cases hdropped : r.dropped with
  | true =>
    obtain ⟨hrun, hactors⟩ := turn_watch_dropped tick others hr hdropped
    exact ⟨[], r, apart_turn_watch, .of_eq hactors, by simp, hrun, .refl r, fun h =>
      h.stay (.refl _) (.refl _) rfl rfl (.refl _) rfl (.refl _)⟩
  | false =>
    cases hraised : r.isRaised with
    | true =>
      obtain ⟨hrun, hactors⟩ := turn_watch_raised tick others hr hdropped hraised
      exact ⟨[], _, apart_turn_watch, .of_eq hactors, by simp, hrun, ⟨rfl, rfl, id⟩, fun h =>
        h.stay (.refl _) (.refl _) rfl rfl (.of_eq (Pool.ids_abortAll _)) rfl
          (Pool.later_abortAll _)⟩
    | false =>
      obtain ⟨hrun, hactors⟩ := turn_watch_waits tick others hr hdropped hraised
      refine ⟨[.watch i (tick + r.watchPeriod)], r, apart_turn_watch, ?_,
        by simp [Actor.place, Actor.isOver], hrun, .refl r, fun h =>
          h.stay (.refl _) (.refl _) rfl rfl (.refl _) rfl (.refl _)⟩
      rw [hactors]
      exact List.perm_append_comm

lemma replaces_alarm {due : Millis} {others : List (Actor σ)} (hr : w.run? i = some r) :
    ∃ new q, Replaces w (w.turn (.alarm i due) others) (.alarm i due) others new r q := by
  obtain ⟨hrun, hactors⟩ := turn_alarm due others hr
  exact ⟨[], _, apart_turn_alarm, .of_eq hactors, by simp, hrun, (Run.Alike.raise r).remains,
    fun h => h.stay (.refl _) (.refl _) rfl rfl (.refl _) rfl (.refl _)⟩

/-! ### Worlds -/

/-- In every run the pool and the users agree. No actor is left whose task has ended, or whose run
is not there. -/
structure Staffed (w : World σ) : Prop where
  placed : ∀ a ∈ w.actors, a.isOver = false ∧ (w.run? a.place).isSome
  template : ∀ i r, w.run? i = some r → (w.template? r.template).isSome
  run : ∀ i r, w.run? i = some r → r.Staffed i w.actors

lemma Staffed.exists_run (hw : w.Staffed) {a : Actor σ} (ha : a ∈ w.actors) :
    ∃ r, w.run? a.place = some r := Option.isSome_iff_exists.1 (hw.placed a ha).2

lemma Staffed.replaces (hw : w.Staffed) {a : Actor σ} {others : List (Actor σ)}
    (hactors : w.actors.Perm (a :: others)) (hr : w.run? a.place = some r) :
    ∃ new q, Replaces w (w.turn a others) a others new r q := by
  have ha : a ∈ w.actors := hactors.mem_iff.2 (List.mem_cons_self ..)
  cases a with
  | user i u => exact replaces_user hr (hw.placed _ ha).1
  | operation o => exact replaces_operation hr (hw.template _ r hr)
  | watch i tick => exact replaces_watch hr
  | alarm i due => exact replaces_alarm hr

/-- Turns keep the users and the pools in agreement. -/
theorem Staffed.turn (hw : w.Staffed) {a : Actor σ} {others : List (Actor σ)}
    (hactors : w.actors.Perm (a :: others)) : (w.turn a others).Staffed := by
  have ha : a ∈ w.actors := hactors.mem_iff.2 (List.mem_cons_self ..)
  obtain ⟨r, hr⟩ := hw.exists_run ha
  obtain ⟨new, q, hturn⟩ := hw.replaces hactors hr
  have hsome : ∀ j, (w.run? j).isSome → ((w.turn a others).run? j).isSome := by
    intro j hj
    by_cases hplace : j = a.place
    · rw [hplace, hturn.run]
      rfl
    · rwa [hturn.apart.others j hplace]
  constructor
  case placed =>
    intro b hb
    rcases List.mem_append.1 (hturn.actors.mem_iff.1 hb) with hb | hb
    · obtain ⟨hplace, hover⟩ := hturn.place b hb
      exact ⟨hover, hsome _ (hplace ▸ (hw.placed a ha).2)⟩
    · obtain ⟨hover, hplace⟩ := hw.placed b (hactors.mem_iff.2 (List.mem_cons_of_mem a hb))
      exact ⟨hover, hsome _ hplace⟩
  case template =>
    intro j t ht
    rw [hturn.apart.templates]
    by_cases hplace : j = a.place
    · rw [hplace, hturn.run] at ht
      cases ht
      rw [hturn.remains.template]
      exact hw.template _ r hr
    · rw [hturn.apart.others j hplace] at ht
      exact hw.template j t ht
  case run =>
    intro j t ht
    by_cases hplace : j = a.place
    · rw [hplace, hturn.run] at ht
      cases ht
      rw [hplace]
      exact (hturn.staffed ((hw.run _ r hr).of_perm hactors.symm)).of_perm hturn.actors
    · rw [hturn.apart.others j hplace] at ht
      -- Only actors of the other run have changed.
      have haway : ∀ b ∈ new, b.place ≠ j := fun b hb => (hturn.place b hb).1 ▸ Ne.symm hplace
      have hstay := (hw.run j t ht).of_perm hactors.symm
      have hnew : t.Staffed j (new ++ others) :=
        hstay.stay (.of_eq ?_) (.of_eq ?_) rfl rfl (.refl _) rfl (.refl _)
      · exact hnew.of_perm hturn.actors
      · rw [enrolledIds_append, enrolledIds_of_place haway]
        exact (List.filterMap_cons_none (Actor.enrolled?_of_place (Ne.symm hplace))).symm
      · rw [awaitedTickets_append, awaitedTickets_of_place haway]
        exact (List.filterMap_cons_none (Actor.ticket?_of_place (Ne.symm hplace))).symm

/-! ### Histories -/

/-- What can be asked of a world from outside. Nobody asks for a count: it follows a creation by
itself. -/
inductive Call : World σ → World σ → Prop
  | cast {w : World σ} (b : Behavior σ) : Call w (w.cast b).2
  | openRun {w : World σ} {template : Nat} (context : RunContext)
      (htemplate : (w.template? template).isSome) : Call w (w.openRun template context).2
  | submit {w : World σ} {i : Nat} {agenda : List Errand} (horizon : Option Millis)
      (hrun : (w.run? i).isSome) (hagenda : ∀ e ∈ agenda, e.isCount = false) :
      Call w (w.submit i agenda horizon).2
  | raise {w : World σ} (i : Nat) : Call w (w.raise i).2
  | raiseAt {w : World σ} {i : Nat} (due : Millis) (hrun : (w.run? i).isSome) :
      Call w (w.raiseAt i due)
  | abort {w : World σ} (i : Nat) : Call w (w.abort i)
  | release {w : World σ} (i : Nat) : Call w (w.release i)
  | log {w : World σ} (m : Message) : Call w (w.log m)

lemma apart_raise (w : World σ) (i : Nat) : Apart i w (w.raise i).2 := by
  rw [raise]
  split
  next => exact .refl i w
  next => exact Apart.setRun w i _

lemma apart_abort (w : World σ) (i : Nat) : Apart i w (w.abort i) := by
  rw [abort]
  split
  next => exact .refl i w
  next => exact (Apart.setRun w i _).trans (apart_log _ _ "")

lemma apart_release (w : World σ) (i : Nat) : Apart i w (w.release i) := by
  rw [release]
  split
  next => exact .refl i w
  next => exact (Apart.setRun w i _).trans (apart_dropIfFree _ i)

/-- A run may be changed from outside as long as everyone stays where they are. -/
lemma Staffed.change (hw : w.Staffed) {q : Run} (hr : w.run? i = some r) (hv : v.run? i = some q)
    (hapart : Apart i w v) (hactors : v.actors = w.actors) (htemplate : q.template = r.template)
    (hstaffed : r.Staffed i w.actors → q.Staffed i w.actors) : v.Staffed := by
  have hsame : ∀ j, (v.run? j).isSome = (w.run? j).isSome := by
    intro j
    by_cases hj : j = i
    · rw [hj, hr, hv]
      rfl
    · rw [hapart.others j hj]
  constructor
  case placed =>
    intro a ha
    rw [hsame]
    exact hw.placed a (hactors ▸ ha)
  case template =>
    intro j t ht
    rw [hapart.templates]
    by_cases hj : j = i
    · rw [hj, hv] at ht
      cases ht
      rw [htemplate]
      exact hw.template i r hr
    · exact hw.template j t (hapart.others j hj ▸ ht)
  case run =>
    intro j t ht
    rw [hactors]
    by_cases hj : j = i
    · rw [hj, hv] at ht
      cases ht
      rw [hj]
      exact hstaffed (hw.run i r hr)
    · exact hw.run j t (hapart.others j hj ▸ ht)

/-- Someone may join who is no user. -/
lemma Staffed.join (hw : w.Staffed) {a : Actor σ} (hruns : v.runs = w.runs)
    (hcastings : v.castings = w.castings) (hactors : v.actors.Perm (a :: w.actors))
    (hrun : (w.run? a.place).isSome) (ha : ∀ i u, a ≠ .user i u) : v.Staffed := by
  have hsame : ∀ j, v.run? j = w.run? j := fun j => by rw [run?, hruns, run?]
  have hover : a.isOver = false := by
    cases a with
    | user i u => exact absurd rfl (ha i u)
    | _ => rfl
  have hid : ∀ j, a.enrolled? j = none ∧ a.ticket? j = none := by
    intro j
    cases a with
    | user i u => exact absurd rfl (ha i u)
    | _ => exact ⟨rfl, rfl⟩
  constructor
  case placed =>
    intro b hb
    rw [hsame]
    rcases List.mem_cons.1 (hactors.mem_iff.1 hb) with rfl | hb
    · exact ⟨hover, hrun⟩
    · exact hw.placed b hb
  case template =>
    intro j t ht
    rw [template?, hcastings]
    exact hw.template j t (hsame j ▸ ht)
  case run =>
    intro j t ht
    refine ((hw.run j t (hsame j ▸ ht)).stay (.of_eq ?_) (.of_eq ?_) rfl rfl (.refl _) rfl
      (.refl _)).of_perm hactors
    · exact List.filterMap_cons_none (hid j).1
    · exact List.filterMap_cons_none (hid j).2

lemma Staffed.openRun (hw : w.Staffed) {template : Nat} (context : RunContext)
    (htemplate : (w.template? template).isSome) : (w.openRun template context).2.Staffed := by
  have hplace : ∀ a ∈ w.actors, a.place ≠ w.runs.length := by
    intro a ha heq
    have hsome := (hw.placed a ha).2
    rw [heq, run?_length] at hsome
    cases hsome
  constructor
  case placed =>
    intro a ha
    rw [run?_openRun]
    rcases List.mem_append.1 ha with ha | ha
    · rw [if_neg (hplace a ha)]
      exact hw.placed a ha
    · rw [List.mem_singleton.1 ha]
      exact ⟨rfl, by simp [Actor.place]⟩
  case template =>
    intro j t ht
    rw [run?_openRun] at ht
    split_ifs at ht
    · cases ht
      exact htemplate
    · exact hw.template j t ht
  case run =>
    intro j t ht
    rw [run?_openRun] at ht
    have hactors : (w.openRun template context).2.actors =
        w.actors ++ [.watch w.runs.length w.now] := rfl
    split_ifs at ht with hj
    · cases ht
      have hall : ∀ a ∈ w.actors, a.place ≠ j := hj ▸ hplace
      constructor
      case enrolled =>
        rw [hactors, enrolledIds_append, enrolledIds_of_place hall]
        exact .refl _
      case awaited =>
        rw [hactors, awaitedTickets_append, awaitedTickets_of_place hall]
        exact .refl _
      case nodup => exact List.nodup_nil
      case lt => exact fun id hid => absurd hid List.not_mem_nil
      case arriving => exact List.nodup_nil
      case launched => exact fun t ht => absurd ht List.not_mem_nil
      case sound => exact fun h => nomatch h
    · refine (hw.run j t ht).stay (.of_eq ?_) (.of_eq ?_) rfl rfl (.refl _) rfl (.refl _)
      · rw [hactors, enrolledIds_append]
        exact List.append_nil _
      · rw [hactors, awaitedTickets_append]
        exact List.append_nil _

/-- So does whatever is asked from outside. -/
theorem Staffed.call (hw : w.Staffed) (hcall : Call w v) : v.Staffed := by
  cases hcall with
  | cast b =>
    rw [cast]
    split
    next => exact hw
    next template heq =>
      refine ⟨hw.placed, fun j t ht => ?_, hw.run⟩
      obtain ⟨c, hc⟩ := Option.isSome_iff_exists.1 (hw.template j t ht)
      obtain ⟨c, hc, -⟩ := Option.map_eq_some_iff.1 hc
      refine Option.isSome_map.trans ?_
      show ((w.castings ++ [({ template } : Casting σ)])[t.template]?).isSome = true
      rw [List.getElem?_append_left (List.getElem?_eq_some_iff.1 hc).1, hc]
      rfl
  | openRun context htemplate => exact hw.openRun context htemplate
  | submit horizon hrun hagenda =>
    refine hw.join rfl rfl (List.perm_append_singleton _ _) hrun ?_
    simp
  | raise i =>
    cases hr : w.run? i with
    | none => rwa [raise, hr]
    | some r =>
      have hv : (w.raise i).2.run? i = some r.raise.2 := by
        rw [raise_eq hr]
        exact run?_setRun_self hr
      exact hw.change hr hv (w.apart_raise i) (w.keeps_raise i).actors rfl
        fun h => h.alike (.raise r)
  | raiseAt due hrun => exact hw.join rfl rfl (.refl _) hrun (by simp)
  | abort i =>
    cases hr : w.run? i with
    | none => rwa [abort, hr]
    | some r =>
      have hv : (w.abort i).run? i = some { r with pool := r.pool.abortAll.2 } := by
        rw [abort_eq hr]
        exact run?_setRun_self hr
      exact hw.change hr hv (w.apart_abort i) (w.keeps_abort i).actors rfl fun h =>
        h.stay (.refl _) (.refl _) rfl rfl (.of_eq (Pool.ids_abortAll _)) rfl
          (Pool.later_abortAll _)
  | release i =>
    cases hr : w.run? i with
    | none => rwa [release, hr]
    | some r =>
      obtain ⟨q, hq, hfreed⟩ := run?_dropIfFree
        (run?_setRun_self (q := { r with released := true }) hr)
      have hv : (w.release i).run? i = some q := by
        rw [release, hr]
        exact hq
      refine hw.change hr hv (w.apart_release i) (w.keeps_release i).actors hfreed.remains.template
        fun h => ?_
      exact Run.Staffed.freed (r := { r with released := true })
        (h.stay (.refl _) (.refl _) rfl rfl (.refl _) rfl (.refl _)) hfreed
  | log m => exact ⟨hw.placed, hw.template, hw.run⟩

lemma Staffed.step (hw : w.Staffed) (hstep : Step w v) : v.Staffed := by
  cases hstep with
  | turn hactors hready => exact hw.turn (hactors ▸ List.perm_middle)
  | wait hnow => exact ⟨hw.placed, hw.template, hw.run⟩

/-- The worlds that a world without runs comes to, whoever takes a turn and whatever is asked of it.
-/
inductive Reachable : World σ → Prop
  | empty {w : World σ} (hruns : w.runs = []) (hactors : w.actors = []) : Reachable w
  | step {w v : World σ} (hw : Reachable w) (hstep : Step w v) : Reachable v
  | call {w v : World σ} (hw : Reachable w) (hcall : Call w v) : Reachable v

lemma staffed_of_empty (hruns : w.runs = []) (hactors : w.actors = []) : w.Staffed := by
  have hrun : ∀ i, w.run? i = none := fun i => by simp [run?, hruns]
  refine ⟨fun a ha => absurd (hactors ▸ ha) List.not_mem_nil, fun i r hr => ?_, fun i r hr => ?_⟩
  · exact absurd ((hrun i).symm.trans hr) (by simp)
  · exact absurd ((hrun i).symm.trans hr) (by simp)

theorem Reachable.staffed (hw : w.Reachable) : w.Staffed := by
  induction hw with
  | empty hruns hactors => exact staffed_of_empty hruns hactors
  | step _ hstep ih => exact ih.step hstep
  | call _ hcall ih => exact ih.call hcall

end World

end LoadTest
