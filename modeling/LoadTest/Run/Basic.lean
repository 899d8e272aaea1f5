import LoadTest.Error
import LoadTest.Population.Pool
import LoadTest.Run.Context
import LoadTest.WorkUnit

/-!
# Runs

A run has a context, a pool of users, and counts of what was done to its population.
-/

namespace LoadTest

structure RunStatistics where
  created : Nat := 0
  removed : Nat := 0
  peak : Nat := 0
  succeeded : Nat := 0
  failed : Nat := 0
  elapsed : Millis := 0
  stopped : Bool := false
  deriving DecidableEq, Repr, Inhabited

/-- One run of a behavior. -/
structure Run where
  /-- The place of its template. -/
  template : Nat
  context : RunContext
  pool : Pool := {}
  created : Nat := 0
  removed : Nat := 0
  launched : Nat := 0
  /-- The tickets of launched users that are not in the pool yet. -/
  arriving : List Nat := []
  /-- Nobody holds the run any more, apart from operations under way. -/
  released : Bool := false
  /-- The run is gone: nothing watches its stop signal. -/
  dropped : Bool := false
  deriving DecidableEq, Repr, Inhabited

namespace Run

def isRaised (r : Run) : Bool := r.context.shared.raised

/-- Raise the stop signal. The answer is whether this call raised it. -/
def raise (r : Run) : Bool × Run :=
  let (first, context) := r.context.raise
  (first, { r with context })

def statistics (r : Run) (elapsed : Millis) : RunStatistics where
  created := r.created
  removed := r.removed
  peak := r.pool.peak
  succeeded := r.context.shared.succeeded
  failed := r.context.shared.failed
  elapsed
  stopped := r.isRaised

/-- The period of the watch on the stop signal. -/
def watchPeriod (r : Run) : Millis := max r.context.watchInterval 1

/-- Launch users: the tickets of the new ones. -/
def launch (r : Run) (amount : Nat) : List Nat × Run :=
  let tickets := List.range' r.launched amount
  (tickets, { r with launched := r.launched + amount, arriving := r.arriving ++ tickets })

/-- Have the users of some tickets all arrived? -/
def haveArrived (r : Run) (first amount : Nat) : Bool :=
  r.arriving.all fun t => t < first || first + amount ≤ t

end Run

def maxMillis : Millis := 18446744073709551615

/-- The pause after each single change when `amount` changes are spread over a duration, in whole
64-bit milliseconds. -/
def stepDelay (amount : Nat) (span : Duration) : Except ExecutionError Millis :=
  if amount = 0 then .error (.zeroAmount span)
  else .ok (min (span.millis / amount) maxMillis)

end LoadTest
