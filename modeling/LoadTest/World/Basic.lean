import LoadTest.Population.User
import LoadTest.Run.Operation
import LoadTest.World.Recorder

/-!
# The world of a load test

Everything that runs: users, operations, and the watches on stop signals, on a clock of whole
milliseconds. A world takes one step at a time. If an actor is ready, the first ready one takes a
step; an actor that is not suspended by its step stays in front, and all others queue up at the
back. A user that suspends in a pool where it has been aborted stays in front too, so that it ends
before anyone else acts, and so does an operation that is put on hold at its limit, which then gives
up at once. If none is ready, the clock moves on to the next instant at which one will be.
-/

namespace LoadTest

variable {σ : Type}

/-- Someone who takes steps in the world, on behalf of the run at a place. -/
inductive Actor (σ : Type) where
  | user (run : Nat) (u : User σ)
  | operation (o : Operation)
  /-- The watch on the stop signal of a run, which looks at it at regular instants. -/
  | watch (run : Nat) (tick : Millis)
  /-- Raises the stop signal of a run at an instant. -/
  | alarm (run : Nat) (due : Millis)

/-- A template, and the number of instances asked of it so far. -/
structure Casting (σ : Type) where
  template : Template σ
  instances : Nat := 0

/-- The state of a load test. -/
structure World (σ : Type) where
  now : Millis := 0
  castings : List (Casting σ) := []
  runs : List Run := []
  /-- Who is there to act, in the order of their turns. -/
  actors : List (Actor σ) := []
  /-- What the ended operations have come to, by their ids. -/
  outcomes : List (Nat × Outcome) := []
  /-- The ids of the operations that are flagged as finished, which each is as it ends. -/
  finished : List Nat := []
  nextOperation : Nat := 0
  recorder : Recorder := {}

namespace World

def run? (w : World σ) (i : Nat) : Option Run := w.runs[i]?

def setRun (w : World σ) (i : Nat) (r : Run) : World σ := { w with runs := w.runs.set i r }

def behaviorName (w : World σ) (r : Run) : String :=
  match w.castings[r.template]? with
  | some c => c.template.name
  | none => ""

/-- Log a message, as a user or not. -/
def log (w : World σ) (m : Message) (user : String := "") : World σ :=
  { w with recorder := w.recorder.log w.now m user }

def publish (w : World σ) (i : Nat) : World σ :=
  match w.run? i with
  | none => w
  | some r =>
    { w with
      recorder := w.recorder.setGauge (liveUsersGauge (w.behaviorName r)) r.pool.count }

/-! ### Readiness -/

def viewOf (w : World σ) (r : Run) (u : User σ) : View :=
  let member := r.pool.find? u.id
  { now := w.now
    run := r.context.view
    active := member.all Member.active
    aborted := member.any Member.aborted
    nextId := r.pool.nextId
    nextInstance := (w.castings[r.template]?.map Casting.instances).getD 0 }

/-- Has the task of a user been aborted? That happens to users of an aborted pool only. -/
def isAborted (r : Run) (u : User σ) : Bool :=
  r.pool.aborted && (r.pool.find? u.id).any Member.aborted

def isReady (w : World σ) : Actor σ → Bool
  | .user i u =>
    match u.wakeAt? with
    | none => true
    | some wakeAt => wakeAt ≤ w.now || (w.run? i).any (isAborted · u)
  | .operation o => (w.run? o.run).any fun r => o.isReady w.now r
  | .watch i tick => tick ≤ w.now || (w.run? i).all Run.dropped
  | .alarm _ due => due ≤ w.now

/-- The instant at which an actor becomes ready by itself, if there is one. -/
def deadline? : Actor σ → Option Millis
  | .user _ u => u.wakeAt?
  | .operation o => [o.hold.deadline?, o.limit].reduceOption.min?
  | .watch _ tick => some tick
  | .alarm _ due => some due

/-- The first ready actor and the others, in their order. -/
def firstReady? (w : World σ) : List (Actor σ) → Option (Actor σ × List (Actor σ))
  | [] => none
  | a :: as =>
    if w.isReady a then some (a, as)
    else (firstReady? w as).map fun (b, bs) => (b, a :: bs)

def earliest (as : List (Actor σ)) : Option Millis := (as.filterMap deadline?).min?

/-! ### Steps -/

/-- The name of a user in messages. -/
def userTitle (u : User σ) : String := s!"{u.id} {u.lifecycle.mode.name}"

def applyEffect (i : Nat) (u : User σ) (w : World σ) (e : Effect) : World σ :=
  match w.run? i with
  | none => w
  | some r =>
    match e with
    | .register mode =>
      let (id, pool) := r.pool.issueId
      let w := if pool.aborted then w.log (.late id) else w
      let arriving := r.arriving.erase u.ticket
      (w.setRun i { r with pool := pool.register { id, mode }, arriving }).publish i
    | .construct =>
      { w with
        castings := w.castings.modify r.template fun c => { c with instances := c.instances + 1 } }
    | .deed (.record label) =>
      { w with
        recorder := w.recorder.event ⟨w.now, u.template.name, u.instanceNumber, label⟩ }
    | .deed (.transaction labels succeeded elapsed) =>
      let shared := r.context.shared.countTransaction succeeded
      { w.setRun i { r with context := { r.context with shared } } with
        recorder := w.recorder.transaction labels succeeded elapsed }
    | .deed .raise => w.setRun i r.raise.2
    | .log m => w.log m (userTitle u)
    | .discard =>
      { w with
        recorder := w.recorder.event ⟨w.now, u.template.name, u.instanceNumber, "drop"⟩ }
    | .leave =>
      let wasLive := r.pool.isLive u.id
      let w := w.setRun i { r with pool := r.pool.deregister u.id }
      if wasLive then w.publish i else w

/-- Let an act of an operation change the world, apart from launches. -/
def applyAct (i : Nat) (w : World σ) (a : Act) : World σ :=
  match a with
  | .log m => w.log m
  | .publish => w.publish i
  | .launch _ _ => w

/-- The users that an act launches. -/
def launched (w : World σ) (i : Nat) (r : Run) (a : Act) : List (Actor σ) :=
  match a, w.castings[r.template]? with
  | .launch ticket lifecycle, some c => [.user i { template := c.template, lifecycle, ticket }]
  | _, _ => []

/-- Is an operation under way on the run at a place? -/
def isHeld (w : World σ) (i : Nat) : Bool :=
  w.actors.any fun
    | .operation o => o.run == i
    | _ => false

/-- Let a run go once nobody holds it: its watch ends, and whoever is still within reach is aborted.
-/
def dropIfFree (w : World σ) (i : Nat) : World σ :=
  match w.run? i with
  | none => w
  | some r =>
    if r.released && !r.dropped && !w.isHeld i then
      let remaining := r.pool.count + r.pool.draining.length
      if remaining > 0 then
        let text := s!"Executor dropped, aborting {remaining} remaining user(s)"
        (w.setRun i { r with dropped := true, pool := r.pool.abortAll.2 }).log ⟨.debug, text⟩
      else w.setRun i { r with dropped := true }
    else w

/-- The turn of an actor, where `others` are all others. -/
def turn (w : World σ) (a : Actor σ) (others : List (Actor σ)) : World σ :=
  match a with
  | .user i u =>
    match w.run? i with
    | none => { w with actors := others }
    | some r =>
      let (u', effects) := u.step (w.viewOf r u)
      let w := effects.foldl (applyEffect i u') w
      if u'.isEnded then { w with actors := others }
      else if u'.isSuspended && !(w.run? i).any (isAborted · u') then
        { w with actors := others ++ [.user i u'] }
      else { w with actors := .user i u' :: others }
  | .operation o =>
    match w.run? o.run with
    | none => { w with actors := others }
    | some r =>
      let (r', o', acts) := o.step w.now r
      let users := acts.flatMap (w.launched o.run r')
      let w := acts.foldl (applyAct o.run) (w.setRun o.run r')
      if o'.isEnded then
        dropIfFree
          { w with
            actors := others ++ users
            finished := o'.id :: w.finished
            outcomes := (o'.id, o'.outcome) :: w.outcomes } o.run
      else if o'.isReady w.now r' then { w with actors := .operation o' :: others ++ users }
      else { w with actors := others ++ users ++ [.operation o'] }
  | .watch i tick =>
    match w.run? i with
    | none => { w with actors := others }
    | some r =>
      if r.dropped then { w with actors := others }
      else if r.isRaised then
        let (aborted, pool) := r.pool.abortAll
        ({ w with actors := others }.setRun i { r with pool }).log
          ⟨.debug, s!"Stop signal observed, aborted {aborted} user(s)"⟩
      else { w with actors := others ++ [.watch i (tick + r.watchPeriod)] }
  | .alarm i _ =>
    match w.run? i with
    | none => { w with actors := others }
    | some r => { w with actors := others }.setRun i r.raise.2

/-- The next step of a world that is not to run past an instant. It is inlined so that the
world that steps on is not kept beside its successor. -/
@[inline] def next? (w : World σ) (limit : Millis) : Option (World σ) :=
  match w.firstReady? w.actors with
  | some (a, others) => some (w.turn a others)
  | none =>
    match earliest w.actors with
    | some t => if t ≤ limit then some { w with now := max w.now t } else none
    | none => none

/-- Step on until a world is as wanted, nothing more happens up to an instant, or the fuel is used
up. -/
def stepUntil (stop : World σ → Bool) (limit : Millis) : (fuel : Nat) → World σ → World σ
  | 0, w => w
  | fuel + 1, w =>
    if stop w then w
    else
      match w.next? limit with
      | some w' => stepUntil stop limit fuel w'
      | none => w

end World

end LoadTest
