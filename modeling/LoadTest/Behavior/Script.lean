import LoadTest.Behavior.Basic

/-!
# Scripted behaviors

Behaviors given as data. A script lists variants of what a callback does, and the calls of a
callback go through the variants in turn.
-/

namespace LoadTest

/-- The sample transactions that a script can make. -/
inductive SampleTransaction where
  | buy
  | look
  deriving DecidableEq, Repr

def SampleTransaction.name : SampleTransaction → String
  | .buy => "buy"
  | .look => "look"

def SampleTransaction.success : SampleTransaction → String
  | .buy => "ok"
  | .look => "7"

def SampleTransaction.failure : SampleTransaction → String
  | .buy => "declined"
  | .look => "not found"

/-- One step of a script. -/
inductive ScriptStep where
  | sleep (duration : Millis)
  | fail (reason : String)
  | panic (reason : String)
  | raise
  | showRun
  /-- Make a sample transaction of a given length. If it fails and that is propagated, the callback
  fails too. -/
  | transact (sample : SampleTransaction) (duration : Millis) (fails propagate : Bool)
  deriving DecidableEq, Repr

/-- The variants of a callback. -/
abbrev Script := List (List ScriptStep)

/-- A place in a behavior that a callback stands in. -/
inductive Slot where
  | task (index : Nat)
  | hook (index : Nat)
  | setUp
  | beforeTask
  | afterTask
  | tearDown
  deriving DecidableEq, Repr

/-- How often each callback of an instance has been called. -/
abbrev CallCounts := List (Slot × Nat)

def CallCounts.get (c : CallCounts) (slot : Slot) : Nat := (c.lookup slot).getD 0

def CallCounts.add (c : CallCounts) (slot : Slot) : CallCounts :=
  (slot, c.get slot + 1) :: c.filter (·.1 ≠ slot)

/-- The text of a truth value in an option. -/
def shownRaise : Option Bool → String
  | some true => "raise:Some(true)"
  | some false => "raise:Some(false)"
  | none => "raise:None"

/-- The text of the current run. -/
def shownRun : Option RunView → String
  | some v => s!"run:{v.runId}/{v.raised}"
  | none => "run:none"

/-- What the steps of a variant do. -/
def ScriptStep.routine (label : String) (state : CallCounts) :
    List ScriptStep → Routine CallCounts
  | [] => .finish state none
  | .sleep ms :: rest => .sleep ms (.record s!"{label}:slept" (routine label state rest))
  | .fail reason :: _ => .finish state (some reason)
  | .panic reason :: _ => .panic reason
  | .raise :: rest => .raise fun r => .record (shownRaise r) (routine label state rest)
  | .showRun :: rest => .look fun v => .record (shownRun v) (routine label state rest)
  | .transact sample ms fails propagate :: rest =>
    .transact (Labels.ofName sample.name)
      (.sleep ms (.finish state (if fails then some sample.failure else none)))
      fun _ failure =>
        match failure with
        | none => .record s!"{sample.name}:{sample.success}" (routine label state rest)
        | some reason =>
          .record s!"{sample.name}:{reason}"
            (if propagate then .finish state (some reason) else routine label state rest)

/-- What a scripted callback does: it reports its label and plays the next variant, if it has any.
-/
def Script.routine (script : Script) (slot : Slot) (label : String) (c : CallCounts) :
    Routine CallCounts :=
  .record label <|
    match script[c.get slot % script.length]? with
    | none => .finish (c.add slot) none
    | some steps => ScriptStep.routine label (c.add slot) steps

structure ScriptedTask where
  name : String
  weight : Nat
  delayAfter : Millis
  script : Script
  deriving DecidableEq, Repr

/-- A scripted hook, before or after the task of its scope. -/
structure ScriptedHook where
  isBefore : Bool
  scope : Option String
  label : String
  script : Script
  deriving DecidableEq, Repr

/-- A scripted behavior. The factory fails for the instance numbers in `failing`. -/
structure ScriptedBehavior where
  name : String
  tasks : List ScriptedTask
  hooks : List ScriptedHook
  setUp : Script
  beforeTask : Script
  afterTask : Script
  tearDown : Script
  failing : List Nat
  deriving DecidableEq, Repr

namespace ScriptedBehavior

def hooksOf (b : ScriptedBehavior) (isBefore : Bool) : List (Hook CallCounts) :=
  (b.hooks.zipIdx.filter (·.1.isBefore == isBefore)).map fun (h, i) =>
    ⟨h.scope, h.script.routine (.hook i) h.label⟩

def taskSet (b : ScriptedBehavior) : TaskSet CallCounts where
  tasks := b.tasks.zipIdx.map fun (t, i) =>
    ⟨t.name, t.weight, t.delayAfter, t.script.routine (.task i) t.name⟩
  before := b.hooksOf true
  after := b.hooksOf false

/-- A behavior that follows the scripts. Tasks are selected by the multiples of an odd constant,
which fill the range of words evenly. -/
def behavior (b : ScriptedBehavior) : Behavior CallCounts where
  name := b.name
  taskSet := b.taskSet
  create n := if n ∈ b.failing then .error s!"no client {n}" else .ok []
  setUp := b.setUp.routine .setUp "set_up"
  beforeTask := b.beforeTask.routine .beforeTask "before_task"
  afterTask := b.afterTask.routine .afterTask "after_task"
  tearDown := b.tearDown.routine .tearDown "tear_down"
  word n cycle := UInt64.ofNat ((n + cycle + 1) * 0x9E3779B97F4A7C15)

end ScriptedBehavior

end LoadTest
