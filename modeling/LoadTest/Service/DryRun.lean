import LoadTest.Behavior.Script
import LoadTest.Control.Controller
import LoadTest.Scenario.Builtin
import LoadTest.Service.Console
import LoadTest.Service.Startup

/-!
# Dry runs

The service without its network interface and on a clock of its own. It knows one behavior. The run
to start with is carried out as fast as it can be computed, after the commands of the operator.
-/

namespace LoadTest

/-- The behavior of a dry run: visits of a tenth of a second. -/
def visitor : ScriptedBehavior where
  name := "visitor"
  tasks := [⟨"visit", 1, 0, [[.sleep 100]]⟩]
  hooks := []
  setUp := []
  beforeTask := []
  afterTask := []
  tearDown := []
  failing := []

/-- A log entry as a line of text. -/
def Entry.line (e : Entry) : String :=
  let time := (Duration.ofMillis e.time).humanText
  let user := if e.user.isEmpty then "" else s!"user {e.user}: "
  s!"{time} {e.message.level.name} {user}{e.message.text}"

/-- How long a dry run may take on its own clock: a day. -/
def dryRunLimit : Millis := 86400000

/-- Start the service, carry out the operator's commands in some bytes, and wait for the run. The
answer is the error that ends the service, if there is one, and the lines of its log. -/
def Settings.dryRun (s : Settings) (input : List UInt8) : Except ServiceError Unit × List String :=
  let lines (c : Controller CallCounts Empty) : List String :=
    c.world.recorder.sortedEntries.map Entry.line
  let c : Controller CallCounts Empty := { commands := builtin, newId := fun n => s!"run-{n}" }
  let c := (c.register visitor.behavior none).2
  let (started, messages, c) := s.start Controller.control c
  let c := messages.foldl Controller.log c
  match started with
  | .error e => (.error e, lines c)
  | .ok () =>
    let (read, messages, c) :=
      if s.stdin then Controller.control.readCommands input c.settle else (.ok (), [], c)
    let c := messages.foldl Controller.log c
    let c := match read with
      | .ok () => c
      | .error e => c.log ⟨.error, s!"Standard input reader failed: {e.message}"⟩
    (.ok (), lines (c.wait dryRunLimit).2)

end LoadTest
