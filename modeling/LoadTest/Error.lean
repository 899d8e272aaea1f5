import LoadTest.Duration
import LoadTest.Scenario.Error

/-!
# Errors

What can go wrong with behaviors, with the execution of a run and with the control of runs, and the
wording of each.
-/

namespace LoadTest

/-- A behavior can not be registered, found or constructed. -/
inductive BehaviorError where
  | notRegistered (name : String)
  | duplicateBehavior (name : String)
  | noTasks (name : String)
  | invalidWeight (task : String) (weight : Nat)
  | construction (name reason : String)
  deriving DecidableEq, Repr

def BehaviorError.message : BehaviorError → String
  | .notRegistered name => s!"No behavior registered under \"{name}\""
  | .duplicateBehavior name => s!"A behavior is already registered under \"{name}\""
  | .noTasks name => s!"Behavior \"{name}\" declares no tasks"
  | .invalidWeight task weight =>
    s!"Task \"{task}\" has invalid weight {weight}; weights must be at least 1"
  | .construction name reason => s!"Failed to construct behavior \"{name}\": {reason}"

/-- A fault of the flow that runs a scenario. The remaining work units are given up. -/
inductive ExecutionError where
  | poisonedPool
  /-- No users at all are to be spread over a duration. -/
  | zeroAmount (span : Duration)
  | panicked
  | cancelled
  deriving DecidableEq, Repr

def ExecutionError.message : ExecutionError → String
  | .poisonedPool => "User pool mutex is poisoned."
  | .zeroAmount span => s!"Can not spread zero users over {span.exactText}"
  | .panicked => "Scenario task panicked."
  | .cancelled => "Scenario task was cancelled."

/-- Why a request to control runs is refused. -/
inductive ControlError where
  | alreadyRunning
  | noActiveRun
  | poisonedData
  | compile (e : CompileError)
  | behavior (e : BehaviorError)
  | execution (e : ExecutionError)
  deriving DecidableEq, Repr

def ControlError.message : ControlError → String
  | .alreadyRunning =>
    "A scenario is already running; stop it or wait for it to finish first."
  | .noActiveRun => "No scenario is running."
  | .poisonedData => "Controller mutex is poisoned."
  | .compile e => s!"Scenario failed to compile: {e.message}"
  | .behavior e => s!"Behavior error: {e.message}"
  | .execution e => s!"Scenario execution failed: {e.message}"

/-- What a lock that a panicking holder left behind means for the users of a pool. -/
def ExecutionError.ofPoisonedLock : ExecutionError := .poisonedPool

/-- What a lock that a panicking holder left behind means for the control of runs. -/
def ControlError.ofPoisonedLock : ControlError := .poisonedData

end LoadTest
