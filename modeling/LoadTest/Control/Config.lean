import LoadTest.Run.Context
import LoadTest.Text.Blank

/-!
# Requests for a run

What a run is started with: the name of a behavior, and perhaps an id, a scenario text, and the
interval at which the stop signal is watched.
-/

namespace LoadTest

structure RunConfig where
  behavior : String
  runId : Option String := none
  scenario : Option String := none
  watchInterval : Millis := defaultWatchInterval
  deriving DecidableEq, Repr, Inhabited

/-- The scenario text that is to replace the profile of the behavior. A blank text replaces nothing.
-/
def RunConfig.override? (c : RunConfig) : Option String :=
  c.scenario.filter fun text => !(Text.trim text.toList).isEmpty

end LoadTest
