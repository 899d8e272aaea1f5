import LoadTest.Proofs.Agreement
import LoadTest.Proofs.Forecast
import LoadTest.Proofs.Watching

/-!
# What an instance keeps to itself

The outline of a world is what is left of it once everything is blotted out that one instance may
change by itself: who is in the pools, what that instance records, and the counts of transactions
unless others heed them. As long as the instance never raises the stop signal, and makes no
transactions that others heed, its steps do not show in the outline. What everybody else does to the
outline depends on nothing but the outline, as long as nobody looks at who is in a pool.
-/

namespace LoadTest

variable {σ : Type} {S : Others σ} {j : Nat} {heedful : Bool}

/-! ### Effects of an instance -/

/-- Effects that nobody can tell who does not look at a pool, and who may heed the counts of
transactions or does not. -/
def Effect.IsPrivate (heedful : Bool) : Effect → Prop
  | .register _ | .construct | .deed .raise => False
  | .deed (.transaction _ _ _) => heedful = false
  | _ => True

def Effect.isTransaction : Effect → Bool
  | .deed (.transaction _ _ _) => true
  | _ => false

lemma Effect.isPrivate_of_isTransaction {e : Effect} (h : e.isTransaction = true) :
    e.IsPrivate false := by
  unfold isTransaction at h
  split at h
  · rfl
  · cases h

namespace User

variable {u : User σ} {v : View}

lemma finish_private (u : User σ) (failure : Option String) :
    ∀ e ∈ (u.finish failure).2, e.IsPrivate heedful := by
  cases failure <;> simp [finish, Effect.IsPrivate]

lemma returned_private (u : User σ) (now : Millis) (stage : Stage σ) (state : σ)
    (failure : Option String) :
    ∀ e ∈ (u.returned now stage state failure).2, e.IsPrivate heedful := by
  cases stage with
  | setUp =>
    cases failure with
    | some reason => exact u.finish_private (some reason)
    | none =>
      rw [returned]
      split <;> simp
  | cycle completed call left pause =>
    cases hcall : call.onFailure <;> cases failure <;> cases left <;>
      simp only [returned, hcall] <;>
      first
      | simp [Effect.IsPrivate]; done
      | split_ifs <;> simp [Effect.IsPrivate]
  | tearDown first =>
    cases first with
    | none => cases failure <;> exact u.finish_private _
    | some reason =>
      cases failure with
      | none => exact u.finish_private _
      | some second => exact List.forall_mem_cons.2 ⟨trivial, u.finish_private (some reason)⟩

/-- A user with an instance keeps its steps to itself, unless it raises the stop signal or makes
transactions that others heed. -/
lemma private_step (h : u.hasInstance = true) (hquiet : .deed .raise ∉ (u.step v).2)
    (hsparing : heedful = true → ∀ e ∈ (u.step v).2, e.isTransaction = false) :
    ∀ e ∈ (u.step v).2, e.IsPrivate heedful := by
  suffices hall : ∀ e ∈ (u.step v).2,
      e = .deed .raise ∨ e.isTransaction = true ∨ e.IsPrivate heedful by
    intro e he
    obtain rfl | htransaction | hprivate := hall e he
    · exact absurd he hquiet
    · cases heedful with
      | false => exact Effect.isPrivate_of_isTransaction htransaction
      | true => simp [hsparing rfl e he] at htransaction
    · exact hprivate
  rw [step]
  split_ifs
  · simp [abandon, Effect.IsPrivate]
  · rw [hasInstance] at h
    have hdeeds : ∀ deeds : List Deed, ∀ e ∈ deeds.map Effect.deed,
        e = .deed .raise ∨ e.isTransaction = true ∨ e.IsPrivate heedful := by
      intro deeds e he
      obtain ⟨d, -, rfl⟩ := List.mem_map.1 he
      cases d with
      | raise => exact .inl rfl
      | transaction labels succeeded elapsed => exact .inr (.inl rfl)
      | record label => exact .inr (.inr trivial)
    cases hphase : u.phase with
    | launched | arrived | ended => simp [hphase] at h
    | calling stage a =>
      cases hstep : a.step v.now (some v.run) with
      | mk standing deeds =>
        cases standing with
        | going a' =>
          simp only [hstep]
          exact hdeeds deeds
        | returned state failure =>
          simp only [hstep]
          refine List.forall_mem_append.2 ⟨hdeeds deeds, fun e he => .inr (.inr ?_)⟩
          exact u.returned_private v.now stage state failure e he
        | panicked =>
          simp only [hstep]
          exact List.forall_mem_append.2 ⟨hdeeds deeds, by simp [Effect.IsPrivate]⟩
    | pausing state completed wakeAt => simp
    | yielding state completed => simp
    | deciding state completed =>
      simp only
      rw [decide]
      split_ifs <;> simp [Effect.IsPrivate]

lemma exists_enter_step (h : u.hasInstance = true) (v : View) :
    ∃ p, (u.step v).1 = u.enter p := by
  rw [step]
  split_ifs
  · exact ⟨.ended, rfl⟩
  · rw [hasInstance] at h
    cases hphase : u.phase with
    | launched | arrived | ended => simp [hphase] at h
    | calling stage a =>
      cases hstep : a.step v.now (some v.run) with
      | mk standing deeds =>
        cases standing with
        | going a' => exact ⟨_, by simp only [hstep]; rfl⟩
        | returned state failure =>
          obtain ⟨p, hp, -⟩ := u.fits_returned v.now stage state failure
          exact ⟨p, by simp only [hstep, hp]⟩
        | panicked => exact ⟨_, by simp only [hstep]; rfl⟩
    | pausing state completed wakeAt =>
      obtain ⟨p, hp, -⟩ := u.fits_endCycle state completed
      exact ⟨p, hp⟩
    | yielding state completed => exact ⟨_, rfl⟩
    | deciding state completed =>
      obtain ⟨p, hp, -⟩ := u.fits_decide v state completed
      exact ⟨p, hp⟩

/-- A user keeps its instance until it ends. -/
lemma hasInstance_step (h : u.hasInstance = true) (v : View) :
    (u.step v).1.instanceNumber = u.instanceNumber ∧
      ((u.step v).1.isEnded = false → (u.step v).1.hasInstance = true) := by
  refine ⟨?_, fun hended => ?_⟩
  · obtain ⟨p, hp⟩ := exists_enter_step h v
    rw [hp]
    rfl
  · have hmoves := movesTo_of_isEnded hended
    rw [hasInstance] at h ⊢
    generalize (u.step v).1.phase = p at hmoves
    cases hmoves with
    | arrives hphase => simp [hphase] at h
    | returns hphase hstep hnext =>
      cases hnext with
      | endOfCycle =>
        rcases u.phase_endCycle _ _ with hp | hp
        · rw [hp]
          rfl
        · rw [hp]
      | _ => rfl
    | wakes hphase =>
      rcases u.phase_endCycle _ _ with hp | hp
      · rw [hp]
        rfl
      · rw [hp]
    | _ => rfl

/-- What an arrived user is made has the next number. -/
lemma hasInstance_of_arrived (h : u.phase = .arrived) (hended : (u.step v).1.isEnded = false) :
    (u.step v).1.hasInstance = true ∧ (u.step v).1.instanceNumber = v.nextInstance := by
  cases hcreate : u.template.create v.nextInstance with
  | error reason =>
    rw [(step_of_unmade h hcreate).1] at hended
    cases hended
  | panic reason =>
    rw [(step_of_lost h hcreate).1] at hended
    cases hended
  | ok state =>
    rw [(step_of_made h hcreate).1]
    exact ⟨rfl, rfl⟩

end User

/-! ### Outlines -/

/-- What shows of the state that all copies of a context share. -/
def SharedState.outline (heedful : Bool) (s : SharedState) : SharedState where
  raised := s.raised
  succeeded := if heedful then s.succeeded else 0
  failed := if heedful then s.failed else 0

/-- What shows of a run. -/
def Run.outline (heedful : Bool) (r : Run) : Run :=
  { r with
    pool := { aborted := r.pool.aborted, nextId := r.pool.nextId }
    context := { r.context with shared := r.context.shared.outline heedful } }

lemma Run.outline_outline (r : Run) : (r.outline heedful).outline heedful = r.outline heedful := by
  cases heedful <;> rfl

/-- What shows of an outcome. -/
def Outcome.outline (heedful : Bool) : Outcome → Outcome
  | .statistics s =>
    .statistics
      { s with
        peak := 0
        succeeded := if heedful then s.succeeded else 0
        failed := if heedful then s.failed else 0 }
  | o => o

/-- What shows of a world. -/
structure Outline where
  /-- How many instances each template has been asked for. -/
  instances : List Nat
  runs : List Run
  outcomes : List (Nat × Outcome)
  events : List Event

namespace Outline

/-- What a user sees from a run in which nobody has been asked to stop. -/
def view (o : Outline) (now : Millis) (r : Run) : View where
  now := now
  run := r.context.view
  active := !r.pool.aborted
  aborted := r.pool.aborted
  nextId := r.pool.nextId
  nextInstance := o.instances[r.template]?.getD 0

def setRun (o : Outline) (i : Nat) (r : Run) : Outline := { o with runs := o.runs.set i r }

def conclude (o : Outline) (id : Nat) (outcome : Outcome) : Outline :=
  { o with outcomes := (id, outcome) :: o.outcomes }

/-- What is recorded of other instances shows. -/
def record (o : Outline) (j : Nat) (e : Event) : Outline :=
  { o with events := o.events ++ [e].filter fun e => e.instanceNumber != j }

/-- How an effect of a user shows, apart from the instance of a number. -/
def effect (heedful : Bool) (i j : Nat) (now : Millis) (u : User σ) (o : Outline) (e : Effect) :
    Outline :=
  match o.runs[i]? with
  | none => o
  | some r =>
    match e with
    | .register _ =>
      o.setRun i
        { r with
          pool := { r.pool with nextId := r.pool.nextId + 1 }
          arriving := r.arriving.erase u.ticket }
    | .construct => { o with instances := o.instances.modify r.template (· + 1) }
    | .deed (.record label) => o.record j ⟨now, u.template.name, u.instanceNumber, label⟩
    | .deed .raise => o.setRun i r.raise.2
    | .deed (.transaction _ succeeded _) =>
      if heedful then
        o.setRun i
          { r with
            context :=
              { r.context with shared := r.context.shared.countTransaction succeeded } }
      else o
    | .discard => o.record j ⟨now, u.template.name, u.instanceNumber, "drop"⟩
    | .log _ | .leave => o

lemma effect_private {i : Nat} {now : Millis} {u : User σ} (hu : u.instanceNumber = j) {e : Effect}
    (he : e.IsPrivate heedful) (o : Outline) : o.effect heedful i j now u e = o := by
  rw [effect]
  cases o.runs[i]? with
  | none => rfl
  | some r =>
    cases e with
    | register mode => exact absurd he not_false
    | construct => exact absurd he not_false
    | deed d =>
      cases d with
      | record label => simp [record, hu]
      | transaction labels succeeded elapsed =>
        rw [show heedful = false from he]
        rfl
      | raise => exact absurd he not_false
    | discard => simp [record, hu]
    | _ => rfl

lemma foldl_effect_private {i : Nat} {now : Millis} {u : User σ} (hu : u.instanceNumber = j)
    {es : List Effect} (hes : ∀ e ∈ es, e.IsPrivate heedful) (o : Outline) :
    es.foldl (effect heedful i j now u) o = o := by
  induction es with
  | nil => rfl
  | cons e es ih =>
    obtain ⟨he, hes⟩ := List.forall_mem_cons.1 hes
    rw [List.foldl_cons, effect_private hu he]
    exact ih hes

/-- All that shows of an arrived user is that it asks for an instance. -/
lemma foldl_effect_arrived {i : Nat} {now : Millis} {u : User σ} (h : u.phase = .arrived) (v : View)
    (o : Outline) :
    (u.step v).2.foldl (effect heedful i j now (u.step v).1) o =
      o.effect heedful i j now u .construct := by
  have hquiet : ∀ u' : User σ, ∀ o : Outline, ∀ m,
      (o.effect heedful i j now u' (.log m)).effect heedful i j now u' .leave = o := by
    intro u' o m
    have hlog : o.effect heedful i j now u' (.log m) = o := by
      rw [effect]
      cases o.runs[i]? <;> rfl
    rw [hlog, effect]
    cases o.runs[i]? <;> rfl
  cases hcreate : u.template.create v.nextInstance with
  | error reason =>
    rw [(User.step_of_unmade h hcreate).1]
    exact hquiet _ _ _
  | panic reason =>
    rw [(User.step_of_lost h hcreate).1]
    exact hquiet _ _ _
  | ok state =>
    rw [(User.step_of_made h hcreate).1]
    rfl

lemma effect_congr {i : Nat} {now : Millis} {u u' : User σ} (h : u.Alike j S u') :
    effect heedful i j now u' = effect heedful i j now u := by
  funext o e
  simp only [effect, h.differ.name, h.ticket, h.instanceNumber]

end Outline

namespace World

variable {w w' : World σ} {i : Nat} {r q : Run}

/-- What shows of a world apart from the instance of a number. -/
def outline (heedful : Bool) (j : Nat) (w : World σ) : Outline where
  instances := w.castings.map Casting.instances
  runs := w.runs.map (Run.outline heedful)
  outcomes := w.outcomes.map fun p => (p.1, p.2.outline heedful)
  events := w.recorder.events.toList.filter fun e => e.instanceNumber != j

lemma getElem?_outline (w : World σ) (i : Nat) :
    (w.outline heedful j).runs[i]? = (w.run? i).map (Run.outline heedful) := List.getElem?_map ..

lemma run?_of_outline (h : w'.outline heedful j = w.outline heedful j) (hr : w.run? i = some r) :
    ∃ r', w'.run? i = some r' ∧ r'.outline heedful = r.outline heedful := by
  have hruns : (w'.outline heedful j).runs[i]? = (w.outline heedful j).runs[i]? := by rw [h]
  rw [getElem?_outline, getElem?_outline, hr] at hruns
  exact Option.map_eq_some_iff.1 hruns

lemma outline_setRun (w : World σ) (i : Nat) (q : Run) :
    (w.setRun i q).outline heedful j = (w.outline heedful j).setRun i (q.outline heedful) := by
  simp [outline, setRun, Outline.setRun, List.map_set]

lemma outline_setRun_congr {q' : Run} (h : w'.outline heedful j = w.outline heedful j)
    (hq : q'.outline heedful = q.outline heedful) (i : Nat) :
    (w'.setRun i q').outline heedful j = (w.setRun i q).outline heedful j := by
  rw [outline_setRun, outline_setRun, h, hq]

lemma outline_setRun_self (hr : w.run? i = some r) (hq : q.outline heedful = r.outline heedful) :
    (w.setRun i q).outline heedful j = w.outline heedful j := by
  obtain ⟨hi, rfl⟩ := List.getElem?_eq_some_iff.1 hr
  rw [outline_setRun, hq]
  simp [outline, Outline.setRun, ← List.map_set]

lemma outline_publish (w : World σ) (i : Nat) :
    (w.publish i).outline heedful j = w.outline heedful j := by
  rw [publish]
  split <;> rfl

lemma outline_event (w : World σ) (e : Event) :
    outline heedful j { w with recorder := w.recorder.event e } =
      (w.outline heedful j).record j e := by
  simp [outline, Outline.record, Recorder.event]

/-- How an effect shows depends on what shows before. -/
lemma outline_applyEffect (i : Nat) (u : User σ) (w : World σ) (e : Effect) :
    (applyEffect i u w e).outline heedful j =
      (w.outline heedful j).effect heedful i j w.now u e := by
  rw [applyEffect, Outline.effect, getElem?_outline]
  cases hr : w.run? i with
  | none => rfl
  | some r =>
    cases e with
    | register mode =>
      simp only [Option.map_some]
      rw [outline_publish, outline_setRun]
      split_ifs <;> rfl
    | construct =>
      have hinstances : (w.castings.modify r.template fun c =>
            { c with instances := c.instances + 1 }).map Casting.instances =
          (w.castings.map Casting.instances).modify r.template (· + 1) := by
        refine List.ext_getElem? fun k => ?_
        simp only [List.getElem?_map, List.getElem?_modify]
        cases w.castings[k]? with
        | none => rfl
        | some c => by_cases hk : r.template = k <;> simp [hk]
      exact congrArg (fun instances => { w.outline heedful j with instances }) hinstances
    | deed d =>
      cases d with
      | record label => exact w.outline_event _
      | transaction labels succeeded elapsed =>
        simp only [Option.map_some]
        cases heedful with
        | true =>
          refine (w.outline_setRun i _).trans ?_
          cases succeeded <;> rfl
        | false =>
          refine outline_setRun_self hr ?_
          cases succeeded <;> rfl
      | raise => exact w.outline_setRun i _
    | log m => rfl
    | discard => exact w.outline_event _
    | leave =>
      have hpool : Run.outline heedful { r with pool := r.pool.deregister u.id } =
          r.outline heedful := by
        simp only [Run.outline, Pool.deregister]
        split_ifs <;> rfl
      simp only [Option.map_some]
      split_ifs
      · rw [outline_publish, outline_setRun_self hr hpool]
      · exact outline_setRun_self hr hpool

lemma outline_foldl_applyEffect (i : Nat) (u : User σ) (es : List Effect) (w : World σ) :
    (es.foldl (applyEffect i u) w).outline heedful j =
      es.foldl (Outline.effect heedful i j w.now u) (w.outline heedful j) := by
  induction es generalizing w with
  | nil => rfl
  | cons e es ih =>
    rw [List.foldl_cons, List.foldl_cons, ih, outline_applyEffect, (apart_applyEffect i u w e).now]

end World

/-! ### Operations that look at nobody -/

/-- A work unit that creates users or lets time pass. -/
def WorkUnit.IsBlind : WorkUnit → Prop
  | .create _ _ _ | .delay _ => True
  | _ => False

/-- An errand that does not look at who is in the pool. -/
def Errand.IsBlind : Errand → Prop
  | .create _ _ | .count _ _ | .delay _ | .conclude _ => True
  | .spread (.create _) _ _ | .paced (.create _) _ _ => True
  | .pause (.create _) _ _ | .resume (.create _) _ _ _ => True
  | .scenario work => ∀ u ∈ work, u.IsBlind
  | .units left _ => ∀ u ∈ left, u.IsBlind
  | _ => False

structure Operation.IsBlind (o : Operation) : Prop where
  agenda : ∀ e ∈ o.agenda, e.IsBlind
  hold : o.hold ≠ .empty

def Act.launch? : Act → Option (Nat × Lifecycle)
  | .launch ticket lifecycle => some (ticket, lifecycle)
  | _ => none

/-- The tickets and lifecycles of the users that some acts launch. -/
def launches (acts : List Act) : List (Nat × Lifecycle) := acts.filterMap Act.launch?

lemma launches_log (m : Message) : launches [.log m] = [] := rfl

/-- What an errand comes to on two runs that show the same. -/
structure Errand.Result.Alike (heedful : Bool) (x x' : Errand.Result) : Prop where
  run : x'.run.outline heedful = x.run.outline heedful
  next : x'.next = x.next
  hold : x'.hold = x.hold
  launches : launches x'.acts = launches x.acts
  outcome : x'.outcome.map (Outcome.outline heedful) = x.outcome.map (Outcome.outline heedful)

/-- What is next of an operation on two runs that show the same. Only its last outcome may differ,
in what does not show. -/
structure Operation.NextAlike (heedful : Bool) (next next' : Run × Operation × List Act) :
    Prop where
  run : next'.1.outline heedful = next.1.outline heedful
  launches : launches next'.2.2 = launches next.2.2
  isEnded : next'.2.1.isEnded = next.2.1.isEnded
  outcome : next'.2.1.outcome.outline heedful = next.2.1.outcome.outline heedful
  goesOn : next.2.1.isEnded = false → next'.2.1 = next.2.1

section Blind

variable {r r' : Run} (hr : r'.outline heedful = r.outline heedful)

include hr

lemma Run.isRaised_of_outline : r'.isRaised = r.isRaised :=
  (congrArg Run.isRaised hr :)

lemma Run.launched_of_outline : r'.launched = r.launched :=
  (congrArg Run.launched hr :)

lemma Errand.perform_alike {e : Errand} (he : e.IsBlind) (now : Millis) :
    (e.perform now r).Alike heedful (e.perform now r') := by
  cases e with
  | create amount lifecycle =>
    rw [perform, perform, Run.isRaised_of_outline hr]
    split_ifs
    · exact ⟨hr, rfl, rfl, rfl, rfl⟩
    · have hlaunched := Run.launched_of_outline hr
      refine ⟨congrArg (fun o : Run => (o.launch amount).2) hr, rfl, ?_, ?_, rfl⟩
      · simp only [hlaunched]
      · simp only [Run.launch, hlaunched]
  | count amount mode =>
    have hcreated := congrArg (fun o : Run => { o with created := o.created + amount }) hr
    exact ⟨hcreated, rfl, rfl, rfl, rfl⟩
  | spread change amount span =>
    rw [perform, perform]
    cases stepDelay amount (.ofMillis span) <;> exact ⟨hr, rfl, rfl, rfl, rfl⟩
  | paced change left step =>
    cases left with
    | zero => exact ⟨hr, rfl, rfl, rfl, rfl⟩
    | succ left =>
      rw [perform, perform, Run.isRaised_of_outline hr]
      split_ifs <;> exact ⟨hr, rfl, rfl, rfl, rfl⟩
  | units left since =>
    cases left with
    | nil => exact ⟨hr, rfl, rfl, rfl, rfl⟩
    | cons unit left =>
      rw [perform, perform, Run.isRaised_of_outline hr]
      split_ifs <;> exact ⟨hr, rfl, rfl, rfl, rfl⟩
  | conclude since =>
    -- The texts differ, as they tell counts that do not show.
    refine ⟨hr, rfl, rfl, (launches_log _).trans (launches_log _).symm, ?_⟩
    exact congrArg (fun o : Run => some (Outcome.statistics (o.statistics (now - since)))) hr
  | delay duration | pause change left step | resume change left step wakeAt | scenario work =>
    exact ⟨hr, rfl, rfl, rfl, rfl⟩
  | remove amount mode | waitForAll | abort | raise | pass duration => exact absurd he not_false

lemma Hold.isOver_of_outline {hold : Hold} (hhold : hold ≠ .empty) (now : Millis) :
    hold.isOver now r' = hold.isOver now r := by
  cases hold with
  | empty => exact absurd rfl hhold
  | arrivals first amount => exact (congrArg (Run.haveArrived · first amount) hr :)
  | pause wakeAt => rw [isOver, isOver, Run.isRaised_of_outline hr]
  | _ => rfl

lemma Operation.isReady_of_outline {o : Operation} (ho : o.IsBlind) (now : Millis) :
    o.isReady now r' = o.isReady now r := by
  rw [isReady, isReady, Hold.isOver_of_outline hr ho.hold]

/-- An operation that looks at nobody does the same on two runs that show the same. -/
lemma Operation.step_alike {o : Operation} (ho : o.IsBlind) (now : Millis) :
    NextAlike heedful (o.step now r) (o.step now r') := by
  have hover := Hold.isOver_of_outline hr ho.hold now
  rw [step, step, hover]
  by_cases hheld : (!o.hold.isOver now r) = true
  · rw [if_pos hheld, if_pos hheld]
    exact ⟨hr, rfl, rfl, rfl, fun _ => rfl⟩
  rw [if_neg hheld, if_neg hheld]
  cases hagenda : o.agenda with
  | nil => exact ⟨hr, rfl, rfl, rfl, fun _ => rfl⟩
  | cons e rest =>
    have hresult := Errand.perform_alike hr (ho.agenda e (hagenda ▸ List.mem_cons_self ..)) now
    have houtcome := hresult.outcome
    cases hx : (e.perform now r).outcome with
    | none =>
      rw [hx, Option.map_none, Option.map_eq_none_iff] at houtcome
      simp only [hx, houtcome, hresult.next, hresult.hold]
      exact ⟨hresult.run, hresult.launches, rfl, rfl, fun _ => rfl⟩
    | some outcome =>
      rw [hx, Option.map_some] at houtcome
      obtain ⟨outcome', hx', hshows⟩ := Option.map_eq_some_iff.1 houtcome
      simp only [hx, hx']
      exact ⟨hresult.run, hresult.launches, rfl, hshows, fun h => absurd h.symm Bool.false_ne_true⟩

lemma Operation.begins_of_outline {o : Operation} (ho : o.IsBlind) (now : Millis) :
    o.begins now r' = o.begins now r := by
  rw [begins, begins, Hold.isOver_of_outline hr ho.hold]
  have hraised := Run.isRaised_of_outline hr
  split_ifs
  · cases o.agenda with
    | nil => rfl
    | cons e rest => cases e <;> simp [Errand.begins, hraised]
  · rfl

end Blind

/-! What such an operation leaves. -/

lemma WorkUnit.IsBlind.errand {u : WorkUnit} (h : u.IsBlind) : u.errand.IsBlind := by
  cases u with
  | create amount lifecycle span => cases span <;> trivial
  | delay duration => trivial
  | remove amount mode span => exact absurd h not_false
  | waitForAll => exact absurd h not_false

/-- Such an errand comes down to others of its kind, and leaves the pool alone. -/
lemma Errand.perform_of_isBlind {e : Errand} (he : e.IsBlind) (now : Millis) (r : Run) :
    (∀ e' ∈ (e.perform now r).next, e'.IsBlind) ∧ (e.perform now r).hold ≠ .empty ∧
      (e.perform now r).run.pool = r.pool ∧ (e.perform now r).run.released = r.released := by
  cases e with
  | create amount lifecycle =>
    rw [perform]
    split_ifs <;> simp [IsBlind, Run.launch]
  | spread change amount span =>
    cases change with
    | remove mode => exact absurd he not_false
    | create lifecycle =>
      rw [perform]
      cases stepDelay amount (.ofMillis span) <;> simp [IsBlind]
  | paced change left step =>
    cases change with
    | remove mode => exact absurd he not_false
    | create lifecycle =>
      cases left with
      | zero => simp [perform]
      | succ left =>
        rw [perform]
        split_ifs <;> simp [Change.errand, IsBlind]
  | pause change left step =>
    cases change with
    | remove mode => exact absurd he not_false
    | create lifecycle => simp [perform, IsBlind]
  | resume change left step wakeAt =>
    cases change with
    | remove mode => exact absurd he not_false
    | create lifecycle =>
      rw [perform]
      split_ifs <;> simp [IsBlind]
  | scenario work => exact ⟨List.forall_mem_singleton.2 he, by simp [perform], rfl, rfl⟩
  | units left since =>
    cases left with
    | nil => simp [perform, IsBlind]
    | cons unit left =>
      obtain ⟨hunit, hleft⟩ := List.forall_mem_cons.1 he
      rw [perform]
      split_ifs
      · simp [IsBlind]
      · refine ⟨List.forall_mem_cons.2 ⟨hunit.errand, ?_⟩, by simp, rfl, rfl⟩
        exact List.forall_mem_singleton.2 hleft
  | count amount mode | delay duration | conclude since => simp [perform]
  | remove amount mode | waitForAll | abort | raise | pass duration => exact absurd he not_false

lemma Operation.step_of_isBlind {o : Operation} (ho : o.IsBlind) (now : Millis) (r : Run) :
    (o.step now r).2.1.IsBlind ∧ (o.step now r).1.pool = r.pool ∧
      (o.step now r).1.released = r.released := by
  have hdone : ∀ o' : Operation, o'.agenda = [] → o'.hold = .free → o'.IsBlind := by
    intro o' hagenda hhold
    exact ⟨by simp [hagenda], by simp [hhold]⟩
  have hstepped := o.stepped now r
  generalize o.step now r = next at hstepped
  cases hstepped with
  | givesUp hhold => exact ⟨hdone _ rfl rfl, rfl, rfl⟩
  | ends hhold hagenda => exact ⟨hdone _ hagenda rfl, rfl, rfl⟩
  | @performs e rest o' hhold hagenda hgoes hends =>
    have hagenda' := hagenda ▸ ho.agenda
    obtain ⟨he, hrest⟩ := List.forall_mem_cons.1 hagenda'
    obtain ⟨hnext, hhold', hpool, hreleased⟩ := Errand.perform_of_isBlind he now r
    refine ⟨?_, hpool, hreleased⟩
    cases houtcome : (e.perform now r).outcome with
    | none =>
      rw [hgoes houtcome]
      exact ⟨List.forall_mem_append.2 ⟨hnext, hrest⟩, hhold'⟩
    | some outcome =>
      rw [hends outcome houtcome]
      exact hdone _ rfl rfl

end LoadTest
