import LoadTest.World.Recorder

/-!
# Sessions outside of runs

A single instance of a behavior whose callbacks are called one by one, each from its beginning to
its end. There is no run to look at, and time passes only while a callback sleeps.
-/

namespace LoadTest

variable {σ : Type}

/-- The clock and the recordings of sessions. -/
structure Bench where
  now : Millis := 0
  recorder : Recorder := {}
  deriving Inhabited

/-- What a callback comes to: the state it leaves and its failure, or none if it panics. -/
abbrev Played (σ : Type) := Option (σ × Option String)

/-- Play a routine to its end, as the instance of a number. -/
def Routine.play (behavior : String) (number : Nat) : Routine σ → Bench → Played σ × Bench
  | .finish s f, b => (some (s, f), b)
  | .panic _, b => (none, b)
  | .sleep d next, b => play behavior number next { b with now := wakeTime b.now d }
  | .record label next, b =>
    play behavior number next
      { b with recorder := b.recorder.event ⟨b.now, behavior, number, label⟩ }
  | .look next, b => play behavior number (next none) b
  | .raise next, b => play behavior number (next none) b
  | .transact labels body next, b =>
    match play behavior number body b with
    | (none, b') => (none, b')
    | (some (s, f), b') =>
      play behavior number (next s f)
        { b' with recorder := b'.recorder.transaction labels f.isNone (b'.now - b.now) }

structure Session (σ : Type) where
  template : Template σ
  number : Nat
  state : σ
  cycles : Nat := 0

namespace Session

/-- Make a session. The answer to a panic is a failure, as it is if a callback panics. -/
def create (template : Template σ) (number : Nat) : Except BehaviorError (Session σ) :=
  match template.create number with
  | .ok state => .ok { template, number, state }
  | .error reason => .error (.construction template.name reason)
  | .panic _ => .error (.construction template.name "panicked")

/-- Play one callback. The answer is its failure, if it fails. -/
def call (s : Session σ) (r : Routine σ) (b : Bench) : Option String × Session σ × Bench :=
  match r.play s.template.name s.number b with
  | (some (state, failure), b) => (failure, { s with state }, b)
  | (none, b) => (some "panicked", s, b)

def setUp (s : Session σ) (b : Bench) : Option String × Session σ × Bench :=
  s.call (s.template.setUp s.state) b

def tearDown (s : Session σ) (b : Bench) : Option String × Session σ × Bench :=
  s.call (s.template.tearDown s.state) b

/-- Play the callbacks of a cycle, up to the first that panics or whose failure is fatal. -/
def playCalls : List (Call σ) → Session σ → Bench → Option String × Session σ × Bench
  | [], s, b => (none, s, b)
  | c :: cs, s, b =>
    match (c.run s.state).play s.template.name s.number b with
    | (none, b) => (some "panicked", s, b)
    | (some (state, none), b) => playCalls cs { s with state } b
    | (some (state, some reason), b) =>
      match c.onFailure with
      | .fatal => (some reason, { s with state }, b)
      | .logged what =>
        playCalls cs { s with state }
          { b with recorder := b.recorder.log b.now ⟨.error, s!"{what}: {reason}"⟩ }

/-- Play one cycle, and the pause after it unless it fails. -/
def cycle (s : Session σ) (b : Bench) : Option String × Session σ × Bench :=
  let task := s.template.select (s.template.word s.number s.cycles)
  let s := { s with cycles := s.cycles + 1 }
  match playCalls (s.template.cycle task) s b with
  | (none, s, b) => (none, s, { b with now := wakeTime b.now task.delayAfter })
  | failed => failed

def discard (s : Session σ) (b : Bench) : Bench :=
  { b with recorder := b.recorder.event ⟨b.now, s.template.name, s.number, "drop"⟩ }

end Session

/-- The sessions of one behavior. Instances are numbered as they are asked for, and sessions as they
are made. -/
structure SessionRoom (σ : Type) where
  template : Template σ
  instances : Nat := 0
  /-- The sessions by their numbers, without those that were let go of. -/
  sessions : List (Option (Session σ)) := []
  bench : Bench := {}

namespace SessionRoom

/-- Make a template of a behavior, and have no sessions yet. -/
def ofBehavior (b : Behavior σ) : Except BehaviorError (SessionRoom σ) :=
  b.validate.map fun template =>
    let tasks := b.taskSet.tasks.length
    { template
      bench :=
        { recorder :=
            Recorder.log {} 0 ⟨.debug, s!"Behavior {b.name} declares {tasks} task(s)"⟩ } }

def create (r : SessionRoom σ) : Except BehaviorError Nat × SessionRoom σ :=
  let session := Session.create r.template r.instances
  let r := { r with instances := r.instances + 1 }
  match session with
  | .ok s => (.ok r.sessions.length, { r with sessions := r.sessions ++ [some s] })
  | .error e => (.error e, r)

def get? (r : SessionRoom σ) (number : Nat) : Option (Session σ) := r.sessions[number]?.join

/-- Have a session do something; none if there is no session of that number. -/
def act (r : SessionRoom σ) (number : Nat)
    (f : Session σ → Bench → Option String × Session σ × Bench) :
    Option (Option String) × SessionRoom σ :=
  match r.get? number with
  | none => (none, r)
  | some s =>
    let (failure, s, bench) := f s r.bench
    (some failure, { r with sessions := r.sessions.set number (some s), bench })

def discard (r : SessionRoom σ) (number : Nat) : Bool × SessionRoom σ :=
  match r.get? number with
  | none => (false, r)
  | some s =>
    (true, { r with sessions := r.sessions.set number none, bench := s.discard r.bench })

end SessionRoom

end LoadTest
