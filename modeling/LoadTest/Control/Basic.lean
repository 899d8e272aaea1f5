import LoadTest.Control.Config
import LoadTest.Error

/-!
# Control of runs

The operations that someone outside may invoke: start a run, stop it, and ask how it stands.
Whatever offers them is a control over some state `κ`.
-/

namespace LoadTest

/-- How the control of runs stands. -/
structure RunStatus where
  active : Bool := false
  runId : Option String := none
  behavior : Option String := none
  liveUsers : Nat := 0
  stopRequested : Bool := false
  deriving DecidableEq, Repr, Inhabited

/-- A way to control runs, with state `κ`. -/
structure Control (κ : Type) where
  /-- Start a run. The answer is its id. -/
  start : RunConfig → κ → Except ControlError String × κ
  stop : κ → Except ControlError Unit × κ
  status : κ → Except ControlError RunStatus × κ

end LoadTest
