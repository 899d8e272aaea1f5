import LoadTest.Proofs.Habits
import LoadTest.Proofs.UserTurns
import Mathlib.Data.List.Forall2

/-!
# Behaviors that differ in one instance

Two behaviors may differ in nothing but what one instance does: whether it can be made, how its
callbacks go and how long they sleep. The other instances are in states that both behaviors treat
alike, and stay in such states. So a user with one of the other instances takes the same steps,
whichever of the two behaviors it is of. As all users of a run share its counts of transactions, it
matters whether the other instances heed what these are.
-/

namespace LoadTest

variable {σ : Type}

/-- What is known of the other instances. -/
structure Others (σ : Type) where
  /-- The states that they may be in. -/
  states : σ → Prop
  /-- The counts of transactions may make a difference to them. -/
  heedful : Bool

instance : CoeFun (Others σ) fun _ => σ → Prop := ⟨Others.states⟩

variable {S : Others σ}

/-- What there is to see of a run for those who may heed the counts of transactions, or do not. -/
def RunView.shown (heedful : Bool) (v : RunView) : RunView :=
  { v with
    succeeded := if heedful then v.succeeded else 0
    failed := if heedful then v.failed else 0 }

def View.shown (heedful : Bool) (v : View) : View := { v with run := v.run.shown heedful }

/-! ### Callbacks -/

/-- All states that the routine may leave are in `S`, as long as its transactions leave such states.
It heeds the counts of transactions only if that is known of `S`. -/
def Routine.StaysIn (S : Others σ) : Routine σ → Prop
  | .finish state _ => S state
  | .panic _ => True
  | .sleep _ next => next.StaysIn S
  | .record _ next => next.StaysIn S
  | .look next =>
    ∀ run, next (run.map (RunView.shown S.heedful)) = next run ∧ (next run).StaysIn S
  | .raise next => ∀ first, (next first).StaysIn S
  | .transact _ body next =>
    body.StaysIn S ∧ ∀ state failure, S state → (next state failure).StaysIn S

/-- Two callbacks do the same in all states in `S`, and do not lead out of them. -/
def AgreeOn (S : Others σ) (f g : σ → Routine σ) : Prop :=
  ∀ state, S state → g state = f state ∧ (f state).StaysIn S

namespace Activation

variable {a a' : Activation σ} {now : Millis} {run : Option RunView}

/-- What is left of the routine does not lead out of the states in `S`. -/
def StaysIn (S : Others σ) (a : Activation σ) : Prop :=
  a.routine.StaysIn S ∧ ∀ t ∈ a.opened, ∀ state failure, S state → (t.next state failure).StaysIn S

lemma staysIn_begin {r : Routine σ} (h : r.StaysIn S) : (Activation.begin r).StaysIn S :=
  ⟨h, fun _ ht => absurd ht List.not_mem_nil⟩

lemma StaysIn.going (h : a.StaysIn S) (hstep : (a.step now run).1 = .going a') : a'.StaysIn S := by
  obtain ⟨routine, opened, wakeAt⟩ := a
  obtain ⟨hroutine, hopened⟩ := h
  cases wakeAt with
  | some wakeAt =>
    cases hstep
    exact ⟨hroutine, hopened⟩
  | none =>
    cases routine with
    | finish state failure =>
      cases opened with
      | nil => cases hstep
      | cons t ts =>
        cases hstep
        obtain ⟨ht, hts⟩ := List.forall_mem_cons.1 hopened
        exact ⟨ht state failure hroutine, hts⟩
    | panic reason => cases hstep
    | sleep d next =>
      cases d <;>
      · cases hstep
        exact ⟨hroutine, hopened⟩
    | record label next =>
      cases hstep
      exact ⟨hroutine, hopened⟩
    | look next =>
      cases hstep
      exact ⟨(hroutine run).2, hopened⟩
    | raise next =>
      cases run <;>
      · cases hstep
        exact ⟨hroutine _, hopened⟩
    | transact labels body next =>
      cases hstep
      exact ⟨hroutine.1, List.forall_mem_cons.2 ⟨hroutine.2, hopened⟩⟩

/-- What is not to be heeded makes no difference. -/
lemma StaysIn.step_shown (h : a.StaysIn S) :
    a.step now (run.map (RunView.shown S.heedful)) = a.step now run := by
  obtain ⟨routine, opened, wakeAt⟩ := a
  cases wakeAt with
  | some wakeAt => rfl
  | none =>
    cases routine with
    | look next => simp only [step, (h.1 run).1]
    | raise next => cases run <;> rfl
    | sleep d next => cases d <;> rfl
    | finish state failure => cases opened <;> rfl
    | _ => rfl

lemma StaysIn.step_view (h : a.StaysIn S) (v : View) :
    a.step (v.shown S.heedful).now (some (v.shown S.heedful).run) = a.step v.now (some v.run) := by
  have hsame : a.step v.now ((some v.run).map (RunView.shown S.heedful)) =
      a.step v.now (some v.run) := h.step_shown
  exact hsame

lemma StaysIn.returned (h : a.StaysIn S) {state : σ} {failure : Option String}
    (hstep : (a.step now run).1 = .returned state failure) : S state := by
  obtain ⟨routine, opened, wakeAt⟩ := a
  cases wakeAt with
  | some wakeAt => cases hstep
  | none =>
    cases routine with
    | finish state failure =>
      cases opened with
      | nil =>
        cases hstep
        exact h.1
      | cons t ts => cases hstep
    | sleep d next => cases d <;> cases hstep
    | raise next => cases run <;> cases hstep
    | _ => cases hstep

end Activation

/-! ### Behaviors -/

structure Task.Alike (S : Others σ) (t t' : Task σ) : Prop where
  name : t'.name = t.name
  weight : t'.weight = t.weight
  delayAfter : t'.delayAfter = t.delayAfter
  run : AgreeOn S t.run t'.run

structure Hook.Alike (S : Others σ) (h h' : Hook σ) : Prop where
  scope : h'.scope = h.scope
  run : AgreeOn S h.run h'.run

structure Call.Alike (S : Others σ) (c c' : Call σ) : Prop where
  onFailure : c'.onFailure = c.onFailure
  run : AgreeOn S c.run c'.run

/-- Two behaviors that differ in nothing but what the instance of a number does. The states of the
others are in `S`. -/
structure Behavior.DifferAt (j : Nat) (S : Others σ) (b b' : Behavior σ) : Prop where
  name : b'.name = b.name
  create : ∀ n, n ≠ j → b'.create n = b.create n
  word : ∀ n, n ≠ j → b'.word n = b.word n
  start : ∀ n state, n ≠ j → b.create n = .ok state → S state
  setUp : AgreeOn S b.setUp b'.setUp
  beforeTask : AgreeOn S b.beforeTask b'.beforeTask
  afterTask : AgreeOn S b.afterTask b'.afterTask
  tearDown : AgreeOn S b.tearDown b'.tearDown
  tasks : List.Forall₂ (Task.Alike S) b.taskSet.tasks b'.taskSet.tasks
  before : List.Forall₂ (Hook.Alike S) b.taskSet.before b'.taskSet.before
  after : List.Forall₂ (Hook.Alike S) b.taskSet.after b'.taskSet.after

lemma pick_alike {unit : Nat} {x x' : Task σ} {xs xs' : List (Task σ)} (hx : x.Alike S x')
    (hxs : List.Forall₂ (Task.Alike S) xs xs') (draw : Nat) :
    (pick unit x xs draw).Alike S (pick unit x' xs' draw) := by
  induction hxs generalizing x x' draw with
  | nil => exact hx
  | cons hy _ ih =>
    rw [pick, pick, hx.weight]
    split_ifs
    · exact hx
    · exact ih hy _

lemma totalWeight_alike {s s' : TaskSet σ} (h : List.Forall₂ (Task.Alike S) s.tasks s'.tasks) :
    s'.totalWeight = s.totalWeight := by
  rw [TaskSet.totalWeight, TaskSet.totalWeight]
  refine (List.rel_foldr (P := Eq) ?_ rfl h).symm
  rintro t t' ht total _ rfl
  simp only [ht.weight]

lemma hookCalls_alike {hooks hooks' : List (Hook σ)} {task task' : Task σ} (side : String)
    (hhooks : List.Forall₂ (Hook.Alike S) hooks hooks') (htask : task.Alike S task') :
    List.Forall₂ (Call.Alike S) (hookCalls side hooks task) (hookCalls side hooks' task') := by
  rw [hookCalls, hookCalls, htask.name]
  refine List.rel_map (fun h h' hh => ⟨rfl, hh.run⟩) (List.rel_filter (fun h h' hh => ?_) hhooks)
  simp only [Hook.appliesTo, hh.scope]

namespace Behavior.DifferAt

variable {j : Nat} {b b' : Behavior σ}

lemma firstCall (h : b.DifferAt j S b') : b.firstCall.Alike S b'.firstCall := ⟨rfl, h.beforeTask⟩

lemma laterCalls (h : b.DifferAt j S b') {task task' : Task σ} (htask : task.Alike S task') :
    List.Forall₂ (Call.Alike S) (b.laterCalls task) (b'.laterCalls task') := by
  have hafter : List.Forall₂ (Call.Alike S) [⟨b.afterTask, .fatal⟩] [⟨b'.afterTask, .fatal⟩] :=
    .cons ⟨rfl, h.afterTask⟩ .nil
  refine List.rel_append (List.rel_append (hookCalls_alike "Before" h.before htask) ?_) hafter
  exact .cons ⟨rfl, htask.run⟩ (hookCalls_alike "After" h.after htask)

lemma select {t t' : Template σ} (h : t.DifferAt j S t'.toBehavior) (word : UInt64) :
    (t.select word).Alike S (t'.select word) := by
  have htasks := h.tasks
  rw [t.tasks_eq, t'.tasks_eq] at htasks
  rw [Template.select, Template.select, totalWeight_alike h.tasks]
  cases htasks with
  | cons hfirst hothers => exact pick_alike hfirst hothers _

end Behavior.DifferAt

/-! ### Users -/

inductive Stage.Alike (S : Others σ) : Stage σ → Stage σ → Prop
  | setUp : Alike S .setUp .setUp
  | cycle {call call' : Call σ} {left left' : List (Call σ)} (completed : UInt32) (pause : Millis)
      (hcall : call.Alike S call') (hleft : List.Forall₂ (Call.Alike S) left left') :
      Alike S (.cycle completed call left pause) (.cycle completed call' left' pause)
  | tearDown (failure : Option String) : Alike S (.tearDown failure) (.tearDown failure)

/-- The same place in two lives, of an instance whose state is in `S`. -/
inductive Phase.Alike (S : Others σ) : Phase σ → Phase σ → Prop
  | launched : Alike S .launched .launched
  | arrived : Alike S .arrived .arrived
  | calling {stage stage' : Stage σ} {a : Activation σ} (hstage : stage.Alike S stage')
      (ha : a.StaysIn S) : Alike S (.calling stage a) (.calling stage' a)
  | pausing {state : σ} (completed : UInt32) (wakeAt : Millis) (hstate : S state) :
      Alike S (.pausing state completed wakeAt) (.pausing state completed wakeAt)
  | yielding {state : σ} (completed : UInt32) (hstate : S state) :
      Alike S (.yielding state completed) (.yielding state completed)
  | deciding {state : σ} (completed : UInt32) (hstate : S state) :
      Alike S (.deciding state completed) (.deciding state completed)
  | ended : Alike S .ended .ended

/-- What a callback in progress is called for tells nothing else apart. -/
lemma Phase.Alike.congr {p p' : Phase σ} {α : Type} (h : p.Alike S p') (f : Phase σ → α)
    (hf : ∀ stage stage' a, f (.calling stage' a) = f (.calling stage a)) : f p' = f p := by
  cases h with
  | calling hstage ha => exact hf _ _ _
  | _ => rfl

inductive Callback.Alike (S : Others σ) : Callback σ → Callback σ → Prop
  | setUp : Alike S .setUp .setUp
  | inCycle {call call' : Call σ} (hcall : call.Alike S call') :
      Alike S (.inCycle call) (.inCycle call')
  | tearDown : Alike S .tearDown .tearDown

/-- The same event of two lives. The callbacks of both do the same in all states in `S`. -/
inductive LifeEvent.Alike (S : Others σ) : LifeEvent σ → LifeEvent σ → Prop
  | calls {c c' : Callback σ} (hc : c.Alike S c') : Alike S (.calls c) (.calls c')
  | returns {c c' : Callback σ} (hc : c.Alike S c') (failure : Option String) :
      Alike S (.returns c failure) (.returns c' failure)
  | pauses (since wakeAt : Millis) : Alike S (.pauses since wakeAt) (.pauses since wakeAt)
  | checks (active raised : Bool) : Alike S (.checks active raised) (.checks active raised)

lemma Stage.Alike.callback {s s' : Stage σ} (h : s.Alike S s') :
    s.callback.Alike S s'.callback := by
  cases h with
  | setUp => exact .setUp
  | cycle completed pause hcall hleft => exact .inCycle hcall
  | tearDown failure => exact .tearDown

lemma Phase.Alike.entered {p p' : Phase σ} (h : p.Alike S p') (now : Millis) :
    List.Forall₂ (LifeEvent.Alike S) (p.entered now) (p'.entered now) := by
  cases h with
  | calling hstage ha => exact .cons (.calls hstage.callback) .nil
  | pausing completed wakeAt hstate => exact .cons (.pauses now wakeAt) .nil
  | _ => exact .nil

namespace User

/-- Does the user have an instance? -/
def hasInstance (u : User σ) : Bool :=
  match u.phase with
  | .launched | .arrived | .ended => false
  | _ => true

/-- Two users at the same place of their lives, whose behaviors differ in an instance that is
neither's. -/
structure Alike (j : Nat) (S : Others σ) (u u' : User σ) : Prop where
  differ : u.template.DifferAt j S u'.template.toBehavior
  lifecycle : u'.lifecycle = u.lifecycle
  ticket : u'.ticket = u.ticket
  id : u'.id = u.id
  instanceNumber : u'.instanceNumber = u.instanceNumber
  apart : u.hasInstance = true → u.instanceNumber ≠ j
  phase : u.phase.Alike S u'.phase

/-- What is next of two users is alike, with the same effects. -/
def NextAlike (j : Nat) (S : Others σ) (next next' : User σ × List Effect) : Prop :=
  next.1.Alike j S next'.1 ∧ next'.2 = next.2

namespace Alike

variable {j : Nat} {u u' : User σ} {v : View}

lemma isSuspended (h : u.Alike j S u') : u'.isSuspended = u.isSuspended :=
  h.phase.congr (fun p => (u.enter p).isSuspended) fun _ _ _ => rfl

lemma isLaunched (h : u.Alike j S u') : u'.isLaunched = u.isLaunched :=
  h.phase.congr (fun p => (u.enter p).isLaunched) fun _ _ _ => rfl

lemma isEnded (h : u.Alike j S u') : u'.isEnded = u.isEnded :=
  h.phase.congr (fun p => (u.enter p).isEnded) fun _ _ _ => rfl

lemma wakeAt? (h : u.Alike j S u') : u'.wakeAt? = u.wakeAt? :=
  h.phase.congr (fun p => (u.enter p).wakeAt?) fun _ _ _ => rfl

lemma hasInstance (h : u.Alike j S u') : u'.hasInstance = u.hasInstance :=
  h.phase.congr (fun p => (u.enter p).hasInstance) fun _ _ _ => rfl

lemma isCalling (h : u.Alike j S u') : u'.isCalling = u.isCalling :=
  h.phase.congr (fun p => (u.enter p).isCalling) fun _ _ _ => rfl

lemma isDeciding (h : u.Alike j S u') : u'.isDeciding = u.isDeciding :=
  h.phase.congr (fun p => (u.enter p).isDeciding) fun _ _ _ => rfl

lemma arrived (h : u.Alike j S u') (hphase : u.phase = .arrived) : u'.phase = .arrived := by
  have hsame := h.phase
  rw [hphase] at hsame
  generalize u'.phase = p' at hsame
  cases hsame
  rfl

lemma enter (h : u.Alike j S u') (hj : u.instanceNumber ≠ j) {p p' : Phase σ} (hp : p.Alike S p') :
    (u.enter p).Alike j S (u'.enter p') :=
  ⟨h.differ, h.lifecycle, h.ticket, h.id, h.instanceNumber, fun _ => hj, hp⟩

lemma ends (h : u.Alike j S u') : (u.enter .ended).Alike j S (u'.enter .ended) :=
  ⟨h.differ, h.lifecycle, h.ticket, h.id, h.instanceNumber, (fun h => nomatch h), .ended⟩

lemma finish (h : u.Alike j S u') (failure : Option String) :
    NextAlike j S (u.finish failure) (u'.finish failure) := ⟨h.ends, rfl⟩

lemma tearDown (h : u.Alike j S u') (hj : u.instanceNumber ≠ j) {state : σ} (hs : S state)
    (failure : Option String) :
    (u.tearDown state failure).Alike j S (u'.tearDown state failure) := by
  obtain ⟨hsame, hstays⟩ := h.differ.tearDown state hs
  rw [User.tearDown, User.tearDown, hsame]
  exact h.enter hj (.calling (.tearDown failure) (Activation.staysIn_begin hstays))

lemma beginCycle (h : u.Alike j S u') (hj : u.instanceNumber ≠ j) {state : σ} (hs : S state)
    (completed : UInt32) :
    (u.beginCycle state completed).Alike j S (u'.beginCycle state completed) := by
  obtain ⟨hsame, hstays⟩ := h.differ.firstCall.run state hs
  have htask := h.differ.select (u.template.word u.instanceNumber completed.toNat)
  rw [User.beginCycle, User.beginCycle, h.instanceNumber, h.differ.word _ hj]
  simp only [hsame, htask.delayAfter]
  refine h.enter hj (.calling ?_ (Activation.staysIn_begin hstays))
  exact .cycle completed _ h.differ.firstCall (h.differ.laterCalls htask)

lemma endCycle (h : u.Alike j S u') (hj : u.instanceNumber ≠ j) {state : σ} (hs : S state)
    (completed : UInt32) :
    (u.endCycle state completed).Alike j S (u'.endCycle state completed) := by
  rw [User.endCycle, User.endCycle, h.lifecycle]
  cases u.lifecycle with
  | regular => exact h.tearDown hj hs none
  | _ => exact h.enter hj (.yielding _ hs)

lemma decide (h : u.Alike j S u') (hj : u.instanceNumber ≠ j) {state : σ} (hs : S state) (v : View)
    (completed : UInt32) :
    NextAlike j S (u.decide v state completed) (u'.decide v state completed) := by
  have hdone : u'.isDone completed = u.isDone completed := by
    rw [isDone, isDone, h.lifecycle]
  rw [User.decide, User.decide, hdone]
  split_ifs
  · exact ⟨h.beginCycle hj hs completed, rfl⟩
  · exact ⟨h.tearDown hj hs none, rfl⟩

/-- What follows a callback of a cycle that has not failed fatally. -/
lemma onwards (h : u.Alike j S u') (hj : u.instanceNumber ≠ j) {state : σ} (hs : S state)
    (now : Millis) (completed : UInt32) (pause : Millis) {left left' : List (Call σ)}
    (report : List Effect) : List.Forall₂ (Call.Alike S) left left' → NextAlike j S
      (match left with
      | next :: left =>
        (u.enter (.calling (.cycle completed next left pause) (.begin (next.run state))), report)
      | [] =>
        if pause = 0 then (u.endCycle state completed, report)
        else (u.enter (.pausing state completed (wakeTime now pause)), report))
      (match left' with
      | next :: left =>
        (u'.enter (.calling (.cycle completed next left pause) (.begin (next.run state))), report)
      | [] =>
        if pause = 0 then (u'.endCycle state completed, report)
        else (u'.enter (.pausing state completed (wakeTime now pause)), report)) := by
  intro hleft
  cases hleft with
  | cons hnext hleft =>
    obtain ⟨hsame, hstays⟩ := hnext.run state hs
    simp only [hsame]
    refine ⟨h.enter hj (.calling ?_ (Activation.staysIn_begin hstays)), rfl⟩
    exact .cycle completed pause hnext hleft
  | nil =>
    by_cases hpause : pause = 0
    · simp only [hpause, if_true]
      exact ⟨h.endCycle hj hs completed, rfl⟩
    · simp only [hpause, if_false]
      exact ⟨h.enter hj (.pausing completed _ hs), rfl⟩

lemma returned (h : u.Alike j S u') (hj : u.instanceNumber ≠ j) {state : σ} (hs : S state)
    (now : Millis) {stage stage' : Stage σ} (hstage : stage.Alike S stage')
    (failure : Option String) :
    NextAlike j S (u.returned now stage state failure) (u'.returned now stage' state failure) := by
  cases hstage with
  | setUp =>
    cases failure with
    | some reason => exact h.finish (some reason)
    | none =>
      rw [User.returned, User.returned, h.lifecycle]
      cases u.lifecycle with
      | regular => exact ⟨h.beginCycle hj hs 0, rfl⟩
      | _ => exact ⟨h.enter hj (.deciding 0 hs), rfl⟩
  | @cycle call call' left left' completed pause hcall hleft =>
    have honFailure := hcall.onFailure
    cases hfailure : call.onFailure <;> rw [hfailure] at honFailure <;> cases failure <;>
      simp only [User.returned, hfailure, honFailure]
    case fatal.some reason => exact ⟨h.tearDown hj hs _, rfl⟩
    all_goals exact h.onwards hj hs now completed pause _ hleft
  | tearDown first =>
    cases first with
    | none => cases failure <;> exact h.finish _
    | some reason =>
      cases failure with
      | none => exact h.finish _
      | some second => exact ⟨(h.finish (some reason)).1, rfl⟩

/-- Two users that meet the same take the same step, unless it gives them the instance in which
their behaviors differ. -/
theorem step (h : u.Alike j S u') (hnew : u.phase = .arrived → v.nextInstance ≠ j) :
    NextAlike j S (u.step v) (u'.step v) := by
  rw [User.step, User.step, h.isSuspended]
  by_cases habort : v.aborted && u.isSuspended
  · rw [if_pos habort, if_pos habort]
    exact ⟨h.ends, rfl⟩
  rw [if_neg habort, if_neg habort]
  have hapart := h.apart
  have hphase := h.phase
  rw [User.hasInstance] at hapart
  generalize u.phase = p at hphase hapart hnew
  generalize u'.phase = p' at hphase
  cases hphase with
  | launched =>
    simp only [h.lifecycle]
    exact ⟨⟨h.differ, rfl, h.ticket, rfl, h.instanceNumber,
      fun hnone => absurd hnone Bool.false_ne_true, .arrived⟩, rfl⟩
  | arrived =>
    have hcreate := h.differ.create _ (hnew rfl)
    simp only [hcreate]
    cases hstate : u.template.create v.nextInstance with
    | error reason =>
      simp only [h.differ.name]
      exact ⟨h.ends, rfl⟩
    | panic reason => exact ⟨h.ends, rfl⟩
    | ok state =>
      obtain ⟨hsame, hstays⟩ := h.differ.setUp state (h.differ.start _ _ (hnew rfl) hstate)
      simp only [hsame]
      exact ⟨⟨h.differ, h.lifecycle, h.ticket, h.id, rfl, fun _ => hnew rfl,
        .calling .setUp (Activation.staysIn_begin hstays)⟩, rfl⟩
  | @calling stage stage' a hstage ha =>
    have hj := hapart rfl
    cases hstep : a.step v.now (some v.run) with
    | mk standing deeds =>
      cases standing with
      | going a' =>
        simp only [hstep]
        exact ⟨h.enter hj (.calling hstage (ha.going (congrArg Prod.fst hstep))), rfl⟩
      | returned state failure =>
        have hs := ha.returned (congrArg Prod.fst hstep)
        obtain ⟨hnext, heffects⟩ := h.returned hj hs v.now hstage failure
        simp only [hstep, heffects]
        exact ⟨hnext, rfl⟩
      | panicked =>
        simp only [hstep]
        exact ⟨h.ends, rfl⟩
  | pausing completed wakeAt hstate => exact ⟨h.endCycle (hapart rfl) hstate completed, rfl⟩
  | yielding completed hstate => exact ⟨h.enter (hapart rfl) (.deciding completed hstate), rfl⟩
  | deciding completed hstate => exact h.decide (hapart rfl) hstate v completed
  | ended => exact ⟨h, rfl⟩

lemma returning? (h : u.Alike j S u') (v : View) :
    Option.Rel (fun r r' => r.1.Alike S r'.1 ∧ r'.2 = r.2) (u.returning? v) (u'.returning? v) := by
  have hphase := h.phase
  rw [User.returning?, User.returning?]
  generalize u.phase = p at hphase
  generalize u'.phase = p' at hphase
  cases hphase with
  | @calling stage stage' a hstage ha =>
    cases hstep : (a.step v.now (some v.run)).1 with
    | returned state failure =>
      simp only [hstep]
      exact .some ⟨hstage.callback, rfl⟩
    | _ =>
      simp only [hstep]
      exact .none
  | _ => exact .none

/-- The same happens to their sessions. -/
theorem events (h : u.Alike j S u') (hnew : u.phase = .arrived → v.nextInstance ≠ j) :
    List.Forall₂ (LifeEvent.Alike S) (u.events v) (u'.events v) := by
  have hreturning := h.returning? v
  have hentered := (h.step hnew).1.phase.entered v.now
  rw [User.events, User.events, User.beginning, User.beginning, h.isDeciding, h.isCalling]
  generalize u.returning? v = returning at hreturning
  generalize u'.returning? v = returning' at hreturning
  have hchecks : List.Forall₂ (LifeEvent.Alike S)
      (if u.isDeciding then [.checks v.active v.run.raised] else [])
      (if u.isDeciding then [.checks v.active v.run.raised] else []) := by
    split_ifs
    · exact .cons (.checks _ _) .nil
    · exact .nil
  cases hreturning with
  | @some r r' hr =>
    obtain ⟨c, failure⟩ := r
    obtain ⟨c', failure'⟩ := r'
    obtain ⟨hc, rfl⟩ := hr
    refine List.rel_append (List.rel_append ?_ hchecks) ?_
    · exact .cons (.returns hc _) .nil
    · simpa using hentered
  | none =>
    refine List.rel_append (List.rel_append .nil hchecks) ?_
    split_ifs
    · exact .nil
    · exact hentered

/-- What is not to be heeded makes no difference to a user. -/
theorem step_shown (h : u.Alike j S u') (v : View) :
    u'.step (v.shown S.heedful) = u'.step v ∧ u'.events (v.shown S.heedful) = u'.events v := by
  have hphase := h.phase
  generalize u.phase = p at hphase
  generalize hp' : u'.phase = p' at hphase
  have hstep : u'.step (v.shown S.heedful) = u'.step v := by
    rw [User.step, User.step, hp']
    cases hphase with
    | calling hstage ha =>
      simp only [ha.step_view v]
      rfl
    | _ => rfl
  have hreturning : u'.returning? (v.shown S.heedful) = u'.returning? v := by
    rw [User.returning?, User.returning?, hp']
    cases hphase with
    | calling hstage ha =>
      simp only [ha.step_view v]
    | _ => rfl
  refine ⟨hstep, ?_⟩
  rw [User.events, User.events, User.beginning, User.beginning, hreturning, hstep]
  rfl

end Alike

end User

end LoadTest
