import LoadTest.Proofs.Slices
import LoadTest.Proofs.Staffing

/-!
# Whose turn comes next

What is left of an actor by its turn stands in front of all others if it can go on at once, and
behind them if it rests. So whoever is in front goes on alone until it rests or is gone, and whoever
is ready gets its turn.
-/

namespace LoadTest

variable {σ : Type}

/-! ### Operations come to an end -/

/-- A bound on the number of errands that a work unit is about. -/
def WorkUnit.size : WorkUnit → Nat
  | .create amount _ (some _) => 5 * amount + 2
  | .remove amount _ (some _) => 5 * amount + 2
  | _ => 2

def workSize (work : List WorkUnit) : Nat := work.foldr (fun u n => u.size + 2 + n) 2

/-- A bound on the number of errands that an errand comes to, with itself. -/
def Errand.size : Errand → Nat
  | .create _ _ => 2
  | .spread _ amount _ => 5 * amount + 2
  | .paced _ left _ => 5 * left + 1
  | .pause _ left _ => 5 * left + 3
  | .resume _ left _ _ => 5 * left + 2
  | .scenario work => workSize work + 1
  | .units left _ => workSize left
  | _ => 1

def agendaSize (es : List Errand) : Nat := es.foldr (fun e n => e.size + n) 0

lemma agendaSize_append (es fs : List Errand) :
    agendaSize (es ++ fs) = agendaSize es + agendaSize fs := by
  induction es with
  | nil => exact (Nat.zero_add _).symm
  | cons e es ih =>
    show e.size + agendaSize (es ++ fs) = e.size + agendaSize es + agendaSize fs
    rw [ih, Nat.add_assoc]

lemma WorkUnit.size_errand_le (u : WorkUnit) : u.errand.size ≤ u.size := by
  cases u with
  | create amount lifecycle span => cases span <;> simp [errand, Errand.size, size]
  | remove amount mode span => cases span <;> simp [errand, Errand.size, size]
  | _ => simp [errand, Errand.size, size]

lemma Change.size_errand_le (c : Change) : c.errand.size ≤ 2 := by
  cases c <;> simp [errand, Errand.size]

/-- What an errand leaves to be done is less than the errand. -/
lemma Errand.agendaSize_perform_lt (now : Millis) (r : Run) (e : Errand) :
    agendaSize (e.perform now r).next < e.size := by
  cases e with
  | create amount lifecycle =>
    rw [perform]
    split_ifs <;> simp [agendaSize, size]
  | remove amount mode =>
    rw [perform]
    split_ifs <;> simp [agendaSize, size]
  | spread change amount span =>
    rw [perform]
    cases stepDelay amount (.ofMillis span) <;> simp [agendaSize, size]
  | paced change left step =>
    cases left with
    | zero => simp [perform, agendaSize, size]
    | succ left =>
      have := change.size_errand_le
      rw [perform]
      split_ifs
      · simp [agendaSize, size]
      · show change.errand.size + (5 * left + 3 + 0) < 5 * (left + 1) + 1
        omega
  | resume change left step wakeAt =>
    rw [perform]
    split_ifs <;> simp [agendaSize, size]
  | units left since =>
    cases left with
    | nil => exact Nat.lt_succ_self 1
    | cons unit left =>
      have := unit.size_errand_le
      rw [perform]
      split_ifs
      · show 1 + 0 < unit.size + 2 + workSize left
        omega
      · show unit.errand.size + (workSize left + 0) < unit.size + 2 + workSize left
        omega
  | _ => simp [perform, agendaSize, size]

/-- Each step of an operation brings it closer to its end. -/
lemma Operation.agendaSize_step_lt {o : Operation} {now : Millis} {r : Run}
    (hgoes : (o.step now r).2.1.isEnded = false) :
    agendaSize (o.step now r).2.1.agenda < agendaSize o.agenda := by
  have hstepped := o.stepped now r
  revert hgoes
  generalize o.step now r = next at hstepped
  cases hstepped with
  | givesUp hhold => exact fun h => by cases h
  | ends hhold hagenda => simp [isEnded, hagenda]
  | @performs e rest o' hhold hagenda hgoes hends =>
    intro hended
    cases houtcome : (e.perform now r).outcome with
    | some outcome =>
      rw [hends outcome houtcome] at hended
      cases hended
    | none =>
      rw [hgoes houtcome, hagenda, agendaSize_append]
      exact Nat.add_lt_add_right (e.agendaSize_perform_lt now r) _

namespace World

variable {w v : World σ} {i : Nat} {r : Run}

/-! ### What is left of a turn -/

/-- What is left of an actor by its turn. -/
inductive Succeeds (w : World σ) : Actor σ → Actor σ → Prop
  | user {i : Nat} {u : User σ} {r : Run} (hr : w.run? i = some r)
      (hgoes : (w.stepUser r u).isEnded = false) :
      Succeeds w (.user i u) (.user i (w.stepUser r u))
  | operation {o : Operation} {r : Run} (hr : w.run? o.run = some r)
      (hgoes : (o.step w.now r).2.1.isEnded = false) :
      Succeeds w (.operation o) (.operation (o.step w.now r).2.1)
  | watch {i : Nat} {tick : Millis} {r : Run} (hr : w.run? i = some r)
      (hdropped : r.dropped = false) (hraised : r.isRaised = false) :
      Succeeds w (.watch i tick) (.watch i (tick + r.watchPeriod))

/-- Whom an actor launches by its turn. -/
inductive Launches (w : World σ) : Actor σ → Actor σ → Prop
  | user {o : Operation} {r : Run} {t : Template σ} (lifecycle : Lifecycle) (ticket : Nat)
      (hr : w.run? o.run = some r) (ht : w.template? r.template = some t) :
      Launches w (.operation o) (.user o.run { template := t, lifecycle, ticket })

end World

/-- Is the actor a user between two suspensions? -/
def Actor.isMidway : Actor σ → Bool
  | .user _ u => u.isEnrolled && !u.isSuspended
  | _ => false

/-- Is the actor a user that is not suspended, or an operation? -/
def Actor.isGoing : Actor σ → Bool
  | .user _ u => !u.isSuspended
  | .operation _ => true
  | _ => false

lemma Actor.isMidway_of_forall_ne {a : Actor σ} (h : ∀ i u, a ≠ .user i u) :
    a.isMidway = false := by
  cases a with
  | user i u => exact absurd rfl (h i u)
  | _ => rfl

lemma World.Launches.isMidway {w : World σ} {a b : Actor σ} (h : w.Launches a b) :
    b.isMidway = false := by
  cases h with
  | user lifecycle ticket hr ht => rfl

lemma User.wakeAt?_of_isSuspended {u : User σ} (h : u.isSuspended = false) : u.wakeAt? = none := by
  revert h
  rw [isSuspended, wakeAt?]
  cases u.phase <;> simp

namespace World

variable {w v : World σ} {i : Nat} {r : Run}

/-- How the actors line up after the turn of one of them. -/
inductive Lineup (w v : World σ) (a : Actor σ) (others : List (Actor σ)) : Prop
  /-- Nothing is left of it. -/
  | leaves (users : List (Actor σ)) (hnew : ∀ b ∈ users, w.Launches a b)
      (hactors : v.actors = others ++ users)
  /-- What is left goes on at once. -/
  | stays (users : List (Actor σ)) (hnew : ∀ b ∈ users, w.Launches a b) {b : Actor σ}
      (hb : w.Succeeds a b) (hgoes : b.isGoing = true) (hready : v.isReady b = true)
      (hactors : v.actors = b :: (others ++ users))
  /-- It is a user that is suspended, and has been aborted. -/
  | dies {i : Nat} {u : User σ} {r : Run} (hb : w.Succeeds a (.user i u))
      (hsuspended : u.isSuspended = true) (hr : v.run? i = some r) (haborted : isAborted r u = true)
      (hactors : v.actors = .user i u :: others)
  /-- What is left rests behind all others. -/
  | rests (users : List (Actor σ)) (hnew : ∀ b ∈ users, w.Launches a b) {b : Actor σ}
      (hb : w.Succeeds a b) (hmidway : b.isMidway = false)
      (hactors : v.actors = others ++ users ++ [b])

lemma Lineup.mem_of_others {a b : Actor σ} {others : List (Actor σ)} (h : Lineup w v a others)
    (hb : b ∈ others) : b ∈ v.actors := by
  cases h with
  | leaves users hnew hactors => simp [hactors, hb]
  | stays users hnew hc hgoes hready hactors => simp [hactors, hb]
  | dies hc hsuspended hr haborted hactors => simp [hactors, hb]
  | rests users hnew hc hmidway hactors => simp [hactors, hb]

lemma lineup_user {u : User σ} {others : List (Actor σ)} (hr : w.run? i = some r) :
    Lineup w (w.turn (.user i u) others) (.user i u) others := by
  cases hended : (w.stepUser r u).isEnded with
  | true =>
    refine .leaves [] (by simp) ?_
    have hended' : (u.step (w.viewOf r u)).1.isEnded = true := hended
    simp only [turn, hr, hended', if_true, List.append_nil]
  | false =>
    have hended' : (u.step (w.viewOf r u)).1.isEnded = false := hended
    set x : World σ := (u.step (w.viewOf r u)).2.foldl (applyEffect i (w.stepUser r u)) w with hx
    cases hrests : (w.stepUser r u).isSuspended &&
        !(x.run? i).any (isAborted · (w.stepUser r u)) with
    | true =>
      have hturn : w.turn (.user i u) others =
          { x with actors := others ++ [.user i (w.stepUser r u)] } := by
        simp only [turn, hr, hended', if_neg Bool.false_ne_true]
        exact if_pos hrests
      refine .rests [] (by simp) (.user hr hended) ?_ (by simp [hturn])
      rw [Bool.and_eq_true] at hrests
      simp [Actor.isMidway, hrests.1]
    | false =>
      have hturn : w.turn (.user i u) others =
          { x with actors := .user i (w.stepUser r u) :: others } := by
        simp only [turn, hr, hended', if_neg Bool.false_ne_true]
        exact if_neg (Bool.eq_false_iff.1 hrests)
      cases hsuspended : (w.stepUser r u).isSuspended with
      | false =>
        refine .stays [] (by simp) (.user hr hended) (by simp [Actor.isGoing, hsuspended]) ?_
          (by simp [hturn])
        rw [isReady, User.wakeAt?_of_isSuspended hsuspended]
      | true =>
        have haborted : (x.run? i).any (isAborted · (w.stepUser r u)) = true := by
          simpa [hsuspended] using hrests
        obtain ⟨q, hq, haborted⟩ := (Option.any_eq_true ..).1 haborted
        exact .dies (.user hr hended) hsuspended (by rw [hturn]; exact hq) haborted
          (by simp [hturn])

lemma lineup_operation {o : Operation} {others : List (Actor σ)} (hr : w.run? o.run = some r) :
    Lineup w (w.turn (.operation o) others) (.operation o) others := by
  have hnew : ∀ b ∈ w.newcomers o.run (o.step w.now r).1 (o.step w.now r).2.2,
      w.Launches (.operation o) b := by
    intro b hb
    obtain ⟨t, ticket, lifecycle, ht, -, rfl⟩ := mem_newcomers hb
    exact .user lifecycle ticket hr ((o.remains_step w.now r).template ▸ ht)
  cases hended : (o.step w.now r).2.1.isEnded with
  | true =>
    obtain ⟨-, -, -, hactors, -⟩ := turn_operation_ends others hr hended
    exact .leaves _ hnew hactors
  | false =>
    obtain ⟨hrun, hactors, -⟩ := turn_operation_goesOn others hr hended
    have hplace := (o.later_step w.now r).2.2
    have hnow : (w.turn (.operation o) others).now = w.now := apart_turn_operation.now
    cases hready : (o.step w.now r).2.1.isReady w.now (o.step w.now r).1 with
    | true =>
      rw [hready, if_pos rfl] at hactors
      refine .stays _ hnew (.operation hr hended) rfl ?_ hactors
      rw [isReady, hplace, hrun, hnow, Option.any_some, hready]
    | false =>
      rw [hready, if_neg Bool.false_ne_true] at hactors
      exact .rests _ hnew (.operation hr hended) rfl hactors

lemma lineup_watch {tick : Millis} {others : List (Actor σ)} (hr : w.run? i = some r) :
    Lineup w (w.turn (.watch i tick) others) (.watch i tick) others := by
  cases hdropped : r.dropped with
  | true =>
    refine .leaves [] (by simp) ?_
    rw [(turn_watch_dropped tick others hr hdropped).2, List.append_nil]
  | false =>
    cases hraised : r.isRaised with
    | true =>
      refine .leaves [] (by simp) ?_
      rw [(turn_watch_raised tick others hr hdropped hraised).2, List.append_nil]
    | false =>
      refine .rests [] (by simp) (.watch hr hdropped hraised) rfl ?_
      rw [(turn_watch_waits tick others hr hdropped hraised).2, List.append_nil]

/-- How the actors of a world with nobody out of place line up after any turn. -/
theorem Staffed.lineup (hw : w.Staffed) {a : Actor σ} (ha : a ∈ w.actors)
    (others : List (Actor σ)) : Lineup w (w.turn a others) a others := by
  obtain ⟨r, hr⟩ := hw.exists_run ha
  cases a with
  | user i u => exact lineup_user hr
  | operation o => exact lineup_operation hr
  | watch i tick => exact lineup_watch hr
  | alarm i due =>
    have hactors := (turn_alarm (i := i) due others hr).2
    exact .leaves [] (by simp) (by rw [hactors, List.append_nil])

/-! ### Turns of the first ready actor -/

/-- The first ready actor takes its turn. -/
inductive Acts : World σ → World σ → Prop
  | turn {w : World σ} {a : Actor σ} {others : List (Actor σ)}
      (hfirst : w.firstReady? w.actors = some (a, others)) : Acts w (w.turn a others)

lemma Acts.step (h : Acts w v) : Step w v := by
  cases h with
  | turn hfirst =>
    obtain ⟨before, after, hactors, rfl, hready⟩ := firstReady?_eq_some hfirst
    exact .turn hactors hready

lemma Acts.next? (h : Acts w v) (limit : Millis) : w.next? limit = some v := by
  cases h with
  | turn hfirst => rw [World.next?, hfirst]

/-- Such turns are all that happens at an instant. -/
lemma exists_stepUntil_of_acts (h : Relation.ReflTransGen Acts w v) :
    ∃ k, ∀ limit, stepUntil (fun _ => false) limit k w = v := by
  induction h using Relation.ReflTransGen.head_induction_on with
  | refl => exact ⟨0, fun _ => rfl⟩
  | head hacts _ ih =>
    obtain ⟨k, hk⟩ := ih
    refine ⟨k + 1, fun limit => ?_⟩
    rw [stepUntil, if_neg Bool.false_ne_true, hacts.next? limit]
    exact hk limit

lemma Reachable.acts (hw : w.Reachable) (h : Relation.ReflTransGen Acts w v) : v.Reachable := by
  induction h with
  | refl => exact hw
  | tail _ hacts ih => exact .step ih hacts.step

lemma now_of_turn {a : Actor σ} {others : List (Actor σ)} : (w.turn a others).now = w.now := by
  cases a with
  | user i u => exact (apart_turn_user (i := i)).now
  | operation o => exact apart_turn_operation.now
  | watch i tick => exact (apart_turn_watch (i := i)).now
  | alarm i due => exact (apart_turn_alarm (i := i)).now

lemma Acts.now (h : Relation.ReflTransGen Acts w v) : v.now = w.now := by
  induction h with
  | refl => rfl
  | tail _ hacts ih =>
    cases hacts with
    | turn hfirst => exact now_of_turn.trans ih

lemma firstReady?_cons {a : Actor σ} {as : List (Actor σ)} (h : w.isReady a = true) :
    w.firstReady? (a :: as) = some (a, as) := by
  rw [firstReady?, if_pos h]

/-- Someone who is ready has the next turn, or someone does who stands further in front. -/
lemma firstReady?_append {a : Actor σ} (h : w.isReady a = true) (front back : List (Actor σ)) :
    w.firstReady? (front ++ a :: back) = some (a, front ++ back) ∨
      ∃ before b after, front = before ++ b :: after ∧ w.isReady b = true ∧
        w.firstReady? (front ++ a :: back) = some (b, before ++ after ++ a :: back) := by
  induction front with
  | nil => exact .inl (firstReady?_cons h)
  | cons c front ih =>
    rw [List.cons_append, firstReady?]
    split_ifs with hc
    · exact .inr ⟨[], c, front, rfl, hc, rfl⟩
    · rcases ih with heq | ⟨before, b, after, rfl, hb, heq⟩
      · exact .inl (by rw [heq]; rfl)
      · exact .inr ⟨c :: before, b, after, rfl, hb, by rw [heq]; rfl⟩

/-! ### Slices -/

end World

/-- How an actor may go on that stays in front of all others. -/
inductive Actor.Presses : Actor σ → Actor σ → Prop
  | user {i : Nat} {u u' : User σ} (h : u'.GoesOn User.isSuspended u) :
      Presses (.user i u') (.user i u)
  | operation {o o' : Operation} (h : agendaSize o'.agenda < agendaSize o.agenda) :
      Presses (.operation o') (.operation o)

lemma Actor.acc_presses (a : Actor σ) : Acc Presses a := by
  cases a with
  | user i u =>
    induction u.acc_of_isSuspended with
    | intro u _ ih =>
      refine Acc.intro _ ?_
      rintro _ ⟨h⟩
      exact ih _ h
  | operation o =>
    induction hsize : agendaSize o.agenda using Nat.strongRecOn generalizing o with
    | ind n ih =>
      refine Acc.intro _ ?_
      rintro _ (_ | h)
      exact ih _ (hsize ▸ h) _ rfl
  | watch i tick => exact Acc.intro _ fun _ h => by cases h
  | alarm i due => exact Acc.intro _ fun _ h => by cases h

namespace World

variable {w v : World σ} {i : Nat} {r : Run}

lemma Succeeds.presses {a b : Actor σ} (h : w.Succeeds a b) (hgoes : b.isGoing = true) :
    b.Presses a := by
  cases h with
  | user hr hended => exact .user ⟨_, rfl, hended, by simpa [Actor.isGoing] using hgoes⟩
  | operation hr hended => exact .operation (Operation.agendaSize_step_lt hended)
  | watch hr hdropped hraised => cases hgoes

/-- A suspended user that has been aborted ends, and nothing happens to its session any more. -/
lemma stepUser_of_isAborted {u : User σ} (haborted : isAborted r u = true)
    (hsuspended : u.isSuspended = true) :
    (w.stepUser r u).isEnded = true ∧ u.events (w.viewOf r u) = [] := by
  have hcut : u.isCutShort (w.viewOf r u) = true := by
    rw [isAborted, Bool.and_eq_true] at haborted
    simp [User.isCutShort, viewOf, haborted.2, hsuspended]
  obtain ⟨hphase, hevents⟩ := User.step_of_isCutShort hcut
  exact ⟨by simp [stepUser, User.isEnded, hphase], hevents⟩

lemma turn_of_isAborted {u : User σ} (others : List (Actor σ)) (hr : w.run? i = some r)
    (haborted : isAborted r u = true) (hsuspended : u.isSuspended = true) :
    (w.turn (.user i u) others).actors = others := by
  have hended : (u.step (w.viewOf r u)).1.isEnded = true :=
    (stepUser_of_isAborted haborted hsuspended).1
  simp only [turn, hr, hended, if_true]

lemma isReady_of_isAborted {u : User σ} (hr : w.run? i = some r) (haborted : isAborted r u = true) :
    w.isReady (.user i u) = true := by
  rw [isReady]
  split
  next => rfl
  next => simp [hr, haborted]

/-- Whoever is in front and ready goes on until it rests behind all others, or is gone. -/
lemma Reachable.exists_slice (hw : w.Reachable) {a : Actor σ} {others : List (Actor σ)}
    (hactors : w.actors = a :: others) (hready : w.isReady a = true) :
    ∃ v new, Relation.ReflTransGen Acts w v ∧ v.actors = others ++ new := by
  induction a.acc_presses generalizing w others with
  | intro a _ ih =>
    have hacts : Acts w (w.turn a others) := .turn (hactors ▸ firstReady?_cons hready)
    have ha : a ∈ w.actors := hactors ▸ List.mem_cons_self ..
    have hreachable := hw.acts (.single hacts)
    cases hw.staffed.lineup ha others with
    | leaves users hnew hafter => exact ⟨_, users, .single hacts, hafter⟩
    | stays users hnew hb hgoes hready' hafter =>
      obtain ⟨v, new, hv, heq⟩ := ih _ (hb.presses hgoes) hreachable hafter hready'
      exact ⟨v, users ++ new, .head hacts hv, by rw [heq, List.append_assoc]⟩
    | @dies i u r hb hsuspended hr haborted hafter =>
      have hready' := isReady_of_isAborted hr haborted
      have hacts' : Acts _ ((w.turn a others).turn (.user i u) others) :=
        .turn (hafter ▸ firstReady?_cons hready')
      refine ⟨_, [], .head hacts (.single hacts'), ?_⟩
      rw [turn_of_isAborted others hr haborted hsuspended, List.append_nil]
    | rests users hnew hb hmidway hafter =>
      exact ⟨_, users ++ [_], .single hacts, by rw [hafter, List.append_assoc]⟩

/-- Whoever stays ready gets its turn. -/
theorem Reachable.exists_turn (hw : w.Reachable) {a : Actor σ} {front back : List (Actor σ)}
    (hactors : w.actors = front ++ a :: back)
    (hready : ∀ v, Relation.ReflTransGen Acts w v → a ∈ v.actors → v.isReady a = true) :
    ∃ v others, Relation.ReflTransGen Acts w v ∧ v.firstReady? v.actors = some (a, others) := by
  induction hlength : front.length using Nat.strongRecOn generalizing w front back with
  | ind n ih =>
    have ha : a ∈ w.actors := by simp [hactors]
    rcases firstReady?_append (hready w .refl ha) front back with
      hfirst | ⟨before, b, after, rfl, hb, hfirst⟩
    · exact ⟨w, _, .refl, by rw [hactors, hfirst]⟩
    · rw [← hactors] at hfirst
      -- Whoever stands further in front has its slice first, after which fewer stand there.
      have hb' : b ∈ w.actors := by simp [hactors]
      have hacts : Acts w (w.turn b (before ++ after ++ a :: back)) := .turn hfirst
      have hgoesOn : ∀ {v : World σ} {new : List (Actor σ)}, Relation.ReflTransGen Acts w v →
          v.actors = before ++ after ++ a :: back ++ new → ∃ x others,
            Relation.ReflTransGen Acts w x ∧ x.firstReady? x.actors = some (a, others) := by
        intro v new hv heq
        have heq' : v.actors = (before ++ after) ++ a :: (back ++ new) := by simp [heq]
        obtain ⟨x, others, hx, hfirst⟩ := ih (before ++ after).length (by simp [← hlength])
          (hw.acts hv) heq' (fun x hx => hready x (hv.trans hx)) rfl
        exact ⟨x, others, hv.trans hx, hfirst⟩
      cases hw.staffed.lineup hb' (before ++ after ++ a :: back) with
      | leaves users hnew hafter => exact hgoesOn (.single hacts) hafter
      | stays users hnew hc hgoes hready' hafter =>
        obtain ⟨v, new, hv, heq⟩ := (hw.acts (.single hacts)).exists_slice hafter hready'
        exact hgoesOn (.head hacts hv) (by rw [heq, List.append_assoc])
      | dies hc hsuspended hr haborted hafter =>
        obtain ⟨v, new, hv, heq⟩ := (hw.acts (.single hacts)).exists_slice hafter
          (isReady_of_isAborted hr haborted)
        exact hgoesOn (.head hacts hv) heq
      | rests users hnew hc hmidway hafter =>
        exact hgoesOn (.single hacts) (by rw [hafter, List.append_assoc])

end World

end LoadTest
