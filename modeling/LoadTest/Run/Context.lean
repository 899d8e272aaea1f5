import LoadTest.Behavior.Routine

/-!
# The context of a run

What a run shares with all of its users: its id, the stop signal, and the counts of transactions.
Once raised, a stop signal stays raised.
-/

namespace LoadTest

/-- How often the stop signal is watched, unless a run says otherwise. -/
def defaultWatchInterval : Millis := 1

/-- The state that all copies of a context share. -/
structure SharedState where
  raised : Bool := false
  succeeded : Nat := 0
  failed : Nat := 0
  deriving DecidableEq, Repr, Inhabited

/-- Raise the stop signal. The answer is whether this call raised it. -/
def SharedState.raise (s : SharedState) : Bool × SharedState :=
  (!s.raised, { s with raised := true })

def SharedState.countTransaction (s : SharedState) (succeeded : Bool) : SharedState :=
  if succeeded then { s with succeeded := s.succeeded + 1 } else { s with failed := s.failed + 1 }

structure RunContext where
  runId : String
  /-- How often the stop signal is watched, in whole milliseconds. -/
  watchInterval : Millis := defaultWatchInterval
  shared : SharedState := {}
  deriving DecidableEq, Repr, Inhabited

/-- What a callback sees of the run. -/
def RunContext.view (c : RunContext) : RunView where
  runId := c.runId
  raised := c.shared.raised
  succeeded := c.shared.succeeded
  failed := c.shared.failed
  watchInterval := c.watchInterval

def RunContext.raise (c : RunContext) : Bool × RunContext :=
  let (first, shared) := c.shared.raise
  (first, { c with shared })

/-! ### Copies -/

/-- A handle to a context: copies of it have a watch interval of their own, and share the rest. -/
structure ContextHandle where
  runId : String
  watchInterval : Millis
  /-- The place of what it shares. -/
  shared : Nat
  deriving DecidableEq, Repr, Inhabited

/-- Contexts and their copies, in the order in which they were made. -/
structure ContextFamily where
  handles : Array ContextHandle := #[]
  states : Array SharedState := #[]
  deriving Repr, Inhabited

namespace ContextFamily

def new (f : ContextFamily) (runId : String) : Nat × ContextFamily :=
  (f.handles.size,
    { handles := f.handles.push ⟨runId, defaultWatchInterval, f.states.size⟩
      states := f.states.push {} })

/-- A copy of a context, with another watch interval if one is given. -/
def copy (f : ContextFamily) (n : Nat) (watchInterval : Option Millis) : Nat × ContextFamily :=
  let h := f.handles.getD n default
  let h := { h with watchInterval := watchInterval.getD h.watchInterval }
  (f.handles.size, { f with handles := f.handles.push h })

def shared (f : ContextFamily) (n : Nat) : SharedState :=
  f.states.getD (f.handles.getD n default).shared default

def raise (f : ContextFamily) (n : Nat) : Bool × ContextFamily :=
  let (first, s) := (f.shared n).raise
  (first, { f with states := f.states.setIfInBounds (f.handles.getD n default).shared s })

end ContextFamily

/-- How a stop signal is shown. -/
def SharedState.signalText (s : SharedState) : String := s!"StopSignal \x7b raised: {s.raised} \x7d"

end LoadTest
