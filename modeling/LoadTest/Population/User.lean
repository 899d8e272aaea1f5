import LoadTest.Behavior.Activation
import LoadTest.Behavior.Selection
import LoadTest.Log
import LoadTest.Population.Pool

/-!
# Virtual users

A user enters the pool, makes its instance of the behavior, sets it up, goes through its cycles, and
tears it down. It advances by single steps, each of which looks at the world once and may change it;
a step into a sleep or a yield is a suspension, and an aborted user ends at its next one.
-/

namespace LoadTest

variable {σ : Type}

/-- What a user sees of the world at a step. -/
structure View where
  now : Millis
  run : RunView
  /-- Nobody has asked this user to stop. -/
  active : Bool
  aborted : Bool
  /-- The id that a user gets that enters now. -/
  nextId : UserId
  /-- The number that an instance gets that is made now. -/
  nextInstance : Nat

/-- What a step of a user does to the world. -/
inductive Effect where
  /-- Enter the pool under the next id. -/
  | register (mode : Mode)
  | construct
  | deed (d : Deed)
  | log (m : Message)
  /-- The instance is gone. -/
  | discard
  | leave
  deriving DecidableEq, Repr

/-- The part of a user's life that a callback belongs to. -/
inductive Stage (σ : Type) where
  | setUp
  /-- A cycle: how many are done, the callback itself, those after it, and the pause at the end. -/
  | cycle (completed : UInt32) (call : Call σ) (left : List (Call σ)) (pause : Millis)
  /-- The tear-down, after the cycles have failed or not. -/
  | tearDown (failure : Option String)

/-- Where a user stands. -/
inductive Phase (σ : Type) where
  /-- Not in the pool yet. -/
  | launched
  /-- In the pool, without an instance. -/
  | arrived
  | calling (stage : Stage σ) (a : Activation σ)
  /-- In the pause at the end of a cycle. -/
  | pausing (state : σ) (completed : UInt32) (wakeAt : Millis)
  /-- After a cycle, giving way to others. -/
  | yielding (state : σ) (completed : UInt32)
  | deciding (state : σ) (completed : UInt32)
  | ended

structure User (σ : Type) where
  template : Template σ
  lifecycle : Lifecycle
  /-- The number under which it was launched. -/
  ticket : Nat
  /-- Its id, once it is in the pool. -/
  id : UserId := 0
  /-- The number of its instance, once it has one. -/
  instanceNumber : Nat := 0
  phase : Phase σ := .launched

namespace User

/-- The instant until which the user sleeps, if it does. -/
def wakeAt? (u : User σ) : Option Millis :=
  match u.phase with
  | .calling _ a => a.wakeAt
  | .pausing _ _ wakeAt => some wakeAt
  | _ => none

/-- Is the user suspended, asleep or giving way to others? -/
def isSuspended (u : User σ) : Bool :=
  match u.phase with
  | .calling _ a => a.wakeAt.isSome
  | .pausing _ _ _ => true
  | .yielding _ _ => true
  | _ => false

def isEnded (u : User σ) : Bool :=
  match u.phase with
  | .ended => true
  | _ => false

def enter (u : User σ) (phase : Phase σ) : User σ := { u with phase }

/-- End, with an error that is logged if there is one. -/
def finish (u : User σ) (failure : Option String) : User σ × List Effect :=
  let report := match failure with
    | some reason => [.log ⟨.error, s!"Virtual user failed: {reason}"⟩]
    | none => []
  (u.enter .ended, report ++ [.discard, .leave])

def tearDown (u : User σ) (state : σ) (failure : Option String) : User σ :=
  u.enter (.calling (.tearDown failure) (.begin (u.template.tearDown state)))

def beginCycle (u : User σ) (state : σ) (completed : UInt32) : User σ :=
  let task := u.template.select (u.template.word u.instanceNumber completed.toNat)
  let call := u.template.firstCall
  u.enter (.calling (.cycle completed call (u.template.laterCalls task) task.delayAfter)
    (.begin (call.run state)))

/-- A cycle is over. Only users that may go on count it. -/
def endCycle (u : User σ) (state : σ) (completed : UInt32) : User σ :=
  match u.lifecycle with
  | .regular => u.tearDown state none
  | _ => u.enter (.yielding state (completed + 1))

/-- Has the user done all cycles it may do? -/
def isDone (u : User σ) (completed : UInt32) : Bool :=
  u.lifecycle.limit?.any (· ≤ completed)

/-- Decide whether to go on: not if the user or its run has been asked to stop, nor past the bound
on its cycles. -/
def decide (u : User σ) (v : View) (state : σ) (completed : UInt32) : User σ × List Effect :=
  if v.active && !v.run.raised && !u.isDone completed then (u.beginCycle state completed, [])
  else
    (u.tearDown state none, [.log ⟨.debug, s!"Exiting after {completed} cycle(s)"⟩])

def returned (u : User σ) (now : Millis) (stage : Stage σ) (state : σ) (failure : Option String) :
    User σ × List Effect :=
  match stage, failure with
  | .setUp, some reason => u.finish (some reason)
  | .setUp, none =>
    match u.lifecycle with
    | .regular => (u.beginCycle state 0, [])
    | _ => (u.enter (.deciding state 0), [])
  | .cycle completed call left pause, failure =>
    match call.onFailure, failure with
    | .fatal, some reason => (u.tearDown state (some reason), [])
    | onFailure, failure =>
      let report := match onFailure, failure with
        | .logged what, some reason => [.log ⟨.error, s!"{what}: {reason}"⟩]
        | _, _ => []
      match left with
      | next :: left =>
        (u.enter (.calling (.cycle completed next left pause) (.begin (next.run state))), report)
      | [] =>
        if pause = 0 then (u.endCycle state completed, report)
        else (u.enter (.pausing state completed (wakeTime now pause)), report)
  | .tearDown (some reason), some second =>
    let (u, effects) := u.finish (some reason)
    (u, .log ⟨.error, s!"Tear down after a failed cycle also failed: {second}"⟩ :: effects)
  | .tearDown first, second => u.finish (first.or second)

/-- The end of a user that has been aborted. -/
def abandon (u : User σ) : User σ × List Effect := (u.enter .ended, [.discard, .leave])

/-- One step of a user that is not suspended, or whose suspension is over. -/
def step (u : User σ) (v : View) : User σ × List Effect :=
  if v.aborted && u.isSuspended then u.abandon
  else
    match u.phase with
    | .launched => ({ u with id := v.nextId, phase := .arrived }, [.register u.lifecycle.mode])
    | .arrived =>
      match u.template.create v.nextInstance with
      | .error reason =>
        let e := BehaviorError.construction u.template.name reason
        (u.enter .ended, [.construct, .log ⟨.error, e.message⟩, .leave])
      | .panic _ =>
        (u.enter .ended, [.construct, .log ⟨.error, "Virtual user panicked"⟩, .leave])
      | .ok state =>
        ({ u with
            instanceNumber := v.nextInstance
            phase := .calling .setUp (.begin (u.template.setUp state)) }, [.construct])
    | .calling stage a =>
      match a.step v.now (some v.run) with
      | (.going a, deeds) => (u.enter (.calling stage a), deeds.map .deed)
      | (.returned state failure, deeds) =>
        let (u, effects) := u.returned v.now stage state failure
        (u, deeds.map .deed ++ effects)
      | (.panicked, deeds) =>
        (u.enter .ended,
          deeds.map .deed ++ [.discard, .log ⟨.error, "Virtual user panicked"⟩, .leave])
    | .pausing state completed _ => (u.endCycle state completed, [])
    | .yielding state completed => (u.enter (.deciding state completed), [])
    | .deciding state completed => u.decide v state completed
    | .ended => (u, [])

end User

end LoadTest
