import LoadTest.Lifecycle

/-!
# Work units

A compiled scenario is a list of work units, carried out one after another.
-/

namespace LoadTest

/-- One deferred change to the population of a run. With a `span`, the change is spread evenly over
that many milliseconds; without, it happens at once. All times are in whole milliseconds. -/
inductive WorkUnit where
  | create (amount : Nat) (lifecycle : Lifecycle) (span : Option Millis)
  /-- Ask the oldest live users of a mode to stop. -/
  | remove (amount : Nat) (mode : Mode) (span : Option Millis)
  | delay (duration : Millis)
  /-- Block until no user is live. -/
  | waitForAll
  deriving DecidableEq, Repr, Inhabited

/-- The most work units that a repetition may bring a scenario to. -/
def maxWorkUnits : Nat := 1000000

end LoadTest
