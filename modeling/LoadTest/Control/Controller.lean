import LoadTest.Control.Basic
import LoadTest.World.Stage

/-!
# The controller

Knows behaviors by name and holds at most one run. A run can only be started once the held one has
finished, and then replaces it: whoever is left of it is stopped. The statistics of a run go to the
first who waits for them.
-/

namespace LoadTest

variable {σ ν : Type}

/-- The scenario of a behavior that has none of its own. -/
def defaultProfile : String := "CreateUsers(amount:1);WaitForAllClientsToFinish();"

structure Registered where
  name : String
  /-- The place of its template. -/
  template : Nat
  profile : Option String
  deriving DecidableEq, Repr

/-- A run that the controller holds. -/
structure HeldRun where
  runId : String
  behavior : String
  run : Nat
  /-- The operation that carries out its scenario. -/
  scenario : Nat
  /-- Somebody has asked for its statistics. -/
  claimed : Bool := false
  deriving DecidableEq, Repr

/-- The behaviors, the commands and the run of a load test. -/
structure Controller (σ ν : Type) where
  world : World σ := {}
  behaviors : List Registered := []
  commands : Registry ν
  held : Option HeldRun := none
  /-- Ids for runs that are started without one. -/
  newId : Nat → String
  newIds : Nat := 0

namespace Controller

/-- Is a run flagged as finished? -/
def isFinished (c : Controller σ ν) (h : HeldRun) : Bool := c.world.finished.contains h.scenario

def log (c : Controller σ ν) (m : Message) : Controller σ ν := { c with world := c.world.log m }

/-! ### Behaviors -/

def find? (c : Controller σ ν) (name : String) : Option Registered :=
  c.behaviors.find? (·.name == name)

/-- Register a behavior under its name, unless that is taken. -/
def register (c : Controller σ ν) (b : Behavior σ) (profile : Option String) :
    Except BehaviorError Unit × Controller σ ν :=
  match c.world.cast b with
  | (.error e, world) => (.error e, { c with world })
  | (.ok template, world) =>
    let c := { c with world }
    match c.find? b.name with
    | some _ => (.error (.duplicateBehavior b.name), c)
    | none =>
      let behavior : Registered := ⟨b.name, template, profile⟩
      let c := { c with behaviors := c.behaviors ++ [behavior] }
      (.ok (), c.log ⟨.debug, s!"Registered behavior {b.name}"⟩)

/-- The behavior of a name, and the scenario that it runs by default. -/
def resolve (c : Controller σ ν) (name : String) : Except BehaviorError (Registered × String) :=
  match c.find? name with
  | some b => .ok (b, b.profile.getD defaultProfile)
  | none => .error (.notRegistered name)

def names (c : Controller σ ν) : List String :=
  (c.behaviors.map Registered.name).mergeSort fun a b => !decide (b < a)

/-! ### Runs -/

/-- Stop whoever is left of a run, and let it go. -/
def retire (c : Controller σ ν) (h : HeldRun) : Controller σ ν :=
  match c.world.run? h.run with
  | none => c
  | some r =>
    let leftover := r.pool.count
    let c := if leftover > 0 then
        c.log ⟨.info, s!"Stopping {leftover} user(s) left over from run {h.runId}"⟩
      else c
    { c with world := (((c.world.raise h.run).2).abort h.run).release h.run }

/-- Start a run. Nothing changes unless it can be started. -/
def start (c : Controller σ ν) (config : RunConfig) :
    Except ControlError String × Controller σ ν :=
  if c.held.any fun h => !c.isFinished h then (.error .alreadyRunning, c)
  else
    match c.resolve config.behavior with
    | .error e => (.error (.behavior e), c)
    | .ok (behavior, profile) =>
      match c.world.compile c.commands (config.override?.getD profile) with
      | (.error e, _) => (.error (.compile e), c)
      | (.ok units, world) =>
        let (runId, newIds) := match config.runId with
          | some runId => (runId, c.newIds)
          | none => (c.newId c.newIds, c.newIds + 1)
        let (run, world) :=
          world.openRun behavior.template { runId, watchInterval := config.watchInterval }
        let (scenario, world) := world.submit run [.scenario units.toList] none
        let c := { c with world, newIds }
        let c := match c.held with
          | some previous => c.retire previous
          | none => c
        let c := { c with held := some { runId, behavior := behavior.name, run, scenario } }
        (.ok runId, c.log ⟨.info, s!"Started run {runId}"⟩)

/-- Start a run of the default scenario of a behavior. -/
def runProfile (c : Controller σ ν) (behavior : String) (runId : Option String) :
    Except ControlError String × Controller σ ν :=
  c.start { behavior, runId }

/-- Stop the held run, unless its stop signal has been raised before: raise the signal and abort its
users. -/
def stop (c : Controller σ ν) : Except ControlError Unit × Controller σ ν :=
  match c.held with
  | none => (.ok (), c.log ⟨.debug, "No run to stop"⟩)
  | some h =>
    match c.world.raise h.run with
    | (false, world) => (.ok (), { c with world })
    | (true, world) =>
      let world := world.log ⟨.warn, s!"Stopping run {h.runId}"⟩
      (.ok (), { c with world := world.abort h.run })

/-- Ask for the statistics of the held run. The answer is the operation to wait for; it is given
only once. -/
def claim (c : Controller σ ν) : Except ControlError Nat × Controller σ ν :=
  match c.held with
  | none => (.error .noActiveRun, c)
  | some h =>
    if h.claimed then (.error .noActiveRun, c)
    else (.ok h.scenario, { c with held := some { h with claimed := true } })

/-- Wait until the scenario of the held run has been carried out, but no longer than `horizon`. The
answer is none if it takes longer. -/
def wait (c : Controller σ ν) (horizon : Millis) :
    Except ControlError (Option RunStatistics) × Controller σ ν :=
  match c.claim with
  | (.error e, c) => (.error e, c)
  | (.ok scenario, c) =>
    let (outcome, world) := c.world.await scenario (c.world.now + horizon)
    let c := { c with world }
    match outcome with
    | some (.statistics s) => (.ok (some s), c)
    | some (.failed e) => (.error (.execution e), c)
    | _ => (.ok none, c)

def status (c : Controller σ ν) : RunStatus :=
  match c.held with
  | none => {}
  | some h =>
    let r := c.world.run? h.run
    { active := !c.isFinished h
      runId := some h.runId
      behavior := some h.behavior
      liveUsers := (r.map (·.pool.count)).getD 0
      stopRequested := r.any Run.isRaised }

/-- The controller as a control of runs. -/
def control : Control (Controller σ ν) where
  start config c := c.start config
  stop c := c.stop
  status c := (.ok c.status, c)

/-- Let everything happen that can still happen at this instant. -/
def settle (c : Controller σ ν) : Controller σ ν := { c with world := c.world.settle }

def pass (c : Controller σ ν) (duration : Millis) : Controller σ ν :=
  { c with world := c.world.pass duration }

end Controller

end LoadTest
