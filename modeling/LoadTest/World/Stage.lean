import LoadTest.Scenario.Compile
import LoadTest.World.Basic

/-!
# Working with a world

Putting templates, runs and operations into a world, letting time pass, and asking what operations
have come to.
-/

namespace LoadTest.World

variable {σ : Type}

/-- The number of steps after which a world is given up as one that never comes to rest. -/
def patience : Nat := 1000000000

/-- Let everything happen that can still happen at this instant. -/
def settle (w : World σ) : World σ := w.stepUntil (fun _ => false) w.now patience

def passUntil (w : World σ) (limit : Millis) : World σ :=
  let w := w.stepUntil (fun _ => false) limit patience
  { w with now := max w.now limit }

def pass (w : World σ) (duration : Millis) : World σ := w.passUntil (wakeTime w.now duration)

/-- Make a template of a behavior. The answer is its place. -/
def cast (w : World σ) (b : Behavior σ) : Except BehaviorError Nat × World σ :=
  match b.validate with
  | .error e => (.error e, w)
  | .ok template =>
    let tasks := b.taskSet.tasks.length
    let casting : Casting σ := { template }
    let w' := { w with castings := w.castings ++ [casting] }
    (.ok w.castings.length, w'.log ⟨.debug, s!"Behavior {b.name} declares {tasks} task(s)"⟩)

def compile {ν : Type} (w : World σ) (commands : Registry ν) (text : String) :
    Except CompileError (Array WorkUnit) × World σ :=
  match commands.compile text with
  | .ok units =>
    (.ok units, w.log ⟨.debug, s!"Compiled scenario into {units.size} work unit(s)"⟩)
  | .error e => (.error e, w)

/-- Open a run of the template at a place, and watch its stop signal from now on. The answer is the
place of the run. -/
def openRun (w : World σ) (template : Nat) (context : RunContext) : Nat × World σ :=
  let i := w.runs.length
  (i, { w with runs := w.runs ++ [{ template, context }], actors := w.actors ++ [.watch i w.now] })

/-- Begin an operation on a run. It is given up after `horizon`, if that is given. The answer is its
id. -/
def submit (w : World σ) (run : Nat) (agenda : List Errand) (horizon : Option Millis) :
    Nat × World σ :=
  let id := w.nextOperation
  let o : Operation := { id, run, agenda, limit := horizon.map (w.now + ·) }
  (id, { w with nextOperation := id + 1, actors := w.actors ++ [.operation o] })

/-- Begin to carry out a scenario text on a run. If it does not compile, the operation has ended
with that. -/
def submitText {ν : Type} (w : World σ) (commands : Registry ν) (run : Nat) (text : String)
    (horizon : Option Millis) : Nat × World σ :=
  match w.compile commands text with
  | (.ok units, w) => w.submit run [.scenario units.toList] horizon
  | (.error e, w) =>
    let id := w.nextOperation
    (id,
      { w with
        nextOperation := id + 1
        finished := id :: w.finished
        outcomes := (id, .uncompiled e) :: w.outcomes })

/-- What an operation has come to, if it has ended. -/
def outcome? (w : World σ) (id : Nat) : Option Outcome := w.outcomes.lookup id

/-- Let time pass until an operation has ended, but no longer than up to an instant. -/
def await (w : World σ) (id : Nat) (limit : Millis) : Option Outcome × World σ :=
  let w := w.stepUntil (fun w => (w.outcome? id).isSome) limit patience
  match w.outcome? id with
  | some outcome => (some outcome, w)
  | none => (none, { w with now := max w.now limit })

/-- Raise the stop signal of a run. The answer is whether this call raised it. -/
def raise (w : World σ) (run : Nat) : Bool × World σ :=
  match w.run? run with
  | none => (false, w)
  | some r =>
    let (first, r) := r.raise
    (first, w.setRun run r)

/-- Have the stop signal of a run raised at an instant. -/
def raiseAt (w : World σ) (run : Nat) (due : Millis) : World σ :=
  { w with actors := .alarm run due :: w.actors }

def abort (w : World σ) (run : Nat) : World σ :=
  match w.run? run with
  | none => w
  | some r =>
    let (aborted, pool) := r.pool.abortAll
    (w.setRun run { r with pool }).log ⟨.debug, s!"Aborted {aborted} user(s)"⟩

/-- Let go of a run. It is gone once no operation is under way on it. -/
def release (w : World σ) (run : Nat) : World σ :=
  match w.run? run with
  | none => w
  | some r => (w.setRun run { r with released := true }).dropIfFree run

end LoadTest.World
