import LoadTest.Scenario.Builtin
import LoadTest.World.Stage

/-!
# Rehearsals

A run that is driven from outside: single operations in the foreground, others in the background,
and the passing of time. A trial carries out one scenario and raises the stop signal on schedule.
-/

namespace LoadTest

variable {σ : Type}

/-- How long an operation may take, unless it is said otherwise. -/
def defaultHorizon : Millis := 600000

/-- What an operation of a rehearsal does. -/
inductive Deal where
  | errand (e : Errand)
  | text (scenario : String)

/-- One step of a rehearsal. -/
inductive Cue where
  /-- Carry something out, and wait for its end. -/
  | foreground (d : Deal) (horizon : Millis)
  /-- Have something carried out in the background. -/
  | background (d : Deal) (horizon : Millis)
  /-- Wait for the end of a background job. -/
  | join (job : Nat)
  | raise
  /-- Let time pass. While the run is held, the horizon may cut this short. -/
  | pass (duration horizon : Millis)
  | drop

/-- The answer to a cue. -/
inductive Reply where
  | ok
  | outcome (o : Outcome)
  | raised (first : Bool)
  | job (number : Nat)
  | noJob
  | dropped

/-- A run that is driven from outside. -/
structure Rehearsal (σ : Type) where
  world : World σ
  run : Nat
  dropped : Bool := false
  jobs : List Nat := []
  joined : List Nat := []

namespace Rehearsal

def ofBehavior (b : Behavior σ) (context : RunContext) : Except BehaviorError (Rehearsal σ) :=
  match World.cast {} b with
  | (.error e, _) => .error e
  | (.ok template, world) =>
    let (run, world) := world.openRun template context
    .ok { world, run }

def submit (r : Rehearsal σ) (d : Deal) (horizon : Millis) : Nat × World σ :=
  match d with
  | .errand e => r.world.submit r.run [e] (some horizon)
  | .text scenario => r.world.submitText (builtin : Registry Empty) r.run scenario (some horizon)

/-- Wait for the end of an operation, which is sure to come up to an instant. -/
def finish (r : Rehearsal σ) (id : Nat) (limit : Millis) : Reply × Rehearsal σ :=
  let (outcome, world) := r.world.await id limit
  (.outcome (outcome.getD .timedOut), { r with world })

def take (r : Rehearsal σ) (c : Cue) : Reply × Rehearsal σ :=
  match c with
  | .pass duration horizon =>
    let wakeAt := wakeTime r.world.now duration
    let limit := r.world.now + horizon
    if r.dropped || wakeAt ≤ limit then (.ok, { r with world := r.world.passUntil wakeAt })
    else (.outcome .timedOut, { r with world := r.world.passUntil limit })
  | .join job =>
    match r.jobs[job]? with
    | some id =>
      if job ∈ r.joined then (.noJob, r)
      else
        let limit := match r.world.actors.findSome? fun
            | .operation o => if o.id = id then o.limit else none
            | _ => none with
          | some limit => limit
          | none => r.world.now
        { r with joined := job :: r.joined }.finish id limit
    | none => (.noJob, r)
  | c =>
    if r.dropped then (.dropped, r)
    else
      match c with
      | .foreground d horizon =>
        let (id, world) := r.submit d horizon
        { r with world }.finish id (world.now + horizon)
      | .background d horizon =>
        let (id, world) := r.submit d horizon
        (.job r.jobs.length, { r with world, jobs := r.jobs ++ [id] })
      | .raise =>
        let (first, world) := r.world.raise r.run
        (.raised first, { r with world })
      | .drop => (.ok, { r with world := r.world.release r.run, dropped := true })
      | _ => (.ok, r)

/-- Take a cue, and let everything happen that can still happen at that instant. -/
def step (r : Rehearsal σ) (c : Cue) : Reply × Rehearsal σ :=
  let (reply, r) := r.take c
  (reply, { r with world := r.world.settle })

end Rehearsal

/-! ### Trials -/

/-- What a trial is to do. -/
structure TrialPlan where
  text : String
  runId : String
  watchInterval : Millis
  /-- The instants at which the stop signal is raised. -/
  stopAt : List Millis
  horizon : Millis
  /-- How long to look on after the scenario. -/
  after : Millis

/-- What came of a trial. -/
structure Trial (σ : Type) where
  units : Nat
  outcome : Outcome
  ended : Millis
  liveAtEnd : Nat
  run : Run
  world : World σ

/-- Carry out a scenario on a run of a behavior. -/
def Behavior.trial (b : Behavior σ) (plan : TrialPlan) :
    Except BehaviorError (Except CompileError (Trial σ) × World σ) :=
  match World.cast {} b with
  | (.error e, _) => .error e
  | (.ok template, world) =>
    match world.compile (builtin : Registry Empty) plan.text with
    | (.error e, world) => .ok (.error e, world)
    | (.ok units, world) =>
      let (run, world) :=
        world.openRun template { runId := plan.runId, watchInterval := plan.watchInterval }
      let world := plan.stopAt.foldr
        (fun t w => if t = 0 then (w.raise run).2 else w.raiseAt run (wakeTime w.now t)) world
      let (id, world) := world.submit run [.scenario units.toList] (some plan.horizon)
      let (outcome, world) := world.await id (world.now + plan.horizon)
      let ended := world.now
      let world := world.settle
      let liveAtEnd := ((world.run? run).map (·.pool.count)).getD 0
      let world := world.pass plan.after
      .ok
        (.ok
          { units := units.size
            outcome := outcome.getD .timedOut
            ended, liveAtEnd
            run := (world.run? run).getD { template, context := { runId := plan.runId } }
            world },
          world)

end LoadTest
