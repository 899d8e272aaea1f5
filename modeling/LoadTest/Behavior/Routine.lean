import LoadTest.Lifecycle

/-!
# Routines

What one callback of a behavior does, as far as a run can notice: it sleeps, looks at the run it
belongs to, raises the stop signal, and makes transactions. A routine is a finite tree of such
actions, in which what comes next may depend on what an action found. `σ` is the state of a
behavior's instance, which the callback may change.
-/

namespace LoadTest

/-- The metrics that a transaction reports to. -/
structure Labels where
  success : String
  error : String
  latency : String
  deriving DecidableEq, Repr

def Labels.ofName (name : String) : Labels where
  success := s!"stampede_{name}_success"
  error := s!"stampede_{name}_error"
  latency := s!"stampede_{name}_latency"

/-- What a callback sees of the run it belongs to. -/
structure RunView where
  runId : String
  raised : Bool := false
  /-- How many transactions of the run have succeeded so far. -/
  succeeded : Nat := 0
  failed : Nat := 0
  watchInterval : Millis
  deriving DecidableEq, Repr

/-- The actions of a callback, down to its end. -/
inductive Routine (σ : Type) where
  /-- The end, with the state left behind, and with an error if the callback fails. -/
  | finish (state : σ) (failure : Option String)
  | panic (reason : String)
  /-- Sleep, for whole milliseconds. A sleep of nothing is over at once. -/
  | sleep (duration : Millis) (next : Routine σ)
  /-- Report that something happened. -/
  | record (label : String) (next : Routine σ)
  /-- Look at the current run, if there is one. -/
  | look (next : Option RunView → Routine σ)
  /-- Raise the stop signal of the current run, if there is one. The answer is whether this call was
  the one that raised it. -/
  | raise (next : Option Bool → Routine σ)
  /-- Make a transaction. It is over when `body` ends, and has failed if `body` has. -/
  | transact (labels : Labels) (body : Routine σ) (next : σ → Option String → Routine σ)

end LoadTest
