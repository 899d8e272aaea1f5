import LoadTest.Control.Basic
import LoadTest.Log
import LoadTest.Service.Error
import LoadTest.Service.Flags

/-!
# Starting the service

The settings of the service, from flags or set one by one, and the run that it starts with.
-/

namespace LoadTest

structure Settings where
  port : Nat := defaultPort
  behavior : Option String := none
  scenario : Option String := none
  runId : Option String := none
  stdin : Bool := true
  deriving DecidableEq, Repr, Inhabited

namespace Settings

def ofFlags (f : Flags) : Settings where
  port := f.port
  behavior := f.behavior
  scenario := f.scenario
  runId := f.runId
  stdin := !f.noStdin

/-- The run to start with, if a behavior is set, and what is logged about it. -/
def startupRun (s : Settings) : Option RunConfig × List Message :=
  match s.behavior with
  | some behavior => (some { behavior, runId := s.runId, scenario := s.scenario }, [])
  | none =>
    (none,
      if s.scenario.isSome then
        [⟨.warn, "Scenario text given without a behavior; ignoring it"⟩]
      else [])

/-- Start the run to start with. -/
def start {κ : Type} (s : Settings) (c : Control κ) (k : κ) :
    Except ServiceError Unit × List Message × κ :=
  match s.startupRun with
  | (none, messages) => (.ok (), messages, k)
  | (some config, messages) =>
    match c.start config k with
    | (.ok runId, k) => (.ok (), messages ++ [⟨.info, s!"Started run {runId}"⟩], k)
    | (.error e, k) => (.error (.control e), messages, k)

end Settings

end LoadTest
