import LoadTest.Population.User

/-!
# The life of a virtual user

What others can tell of the session of a user: which callbacks are called and how they return, the
pauses, and the checks before cycles. `User.events` reads that off each step, and `Life` says by
rules which sequences of it make up a whole life.
-/

namespace LoadTest

variable {σ : Type}

inductive Callback (σ : Type) where
  | setUp
  | inCycle (call : Call σ)
  | tearDown

/-- What happens to the session of a user. -/
inductive LifeEvent (σ : Type) where
  | calls (c : Callback σ)
  | returns (c : Callback σ) (failure : Option String)
  /-- The user begins to sleep at the end of a cycle. -/
  | pauses (since wakeAt : Millis)
  /-- The user looks before a cycle whether it may go on. -/
  | checks (active raised : Bool)

/-! ### Lives -/

/-- One pass through the callbacks of a cycle, up to the first fatal failure. Without one the pause
follows, if there is any. -/
inductive CycleRun : (calls : List (Call σ)) → (pause : Millis) → List (LifeEvent σ) →
    (failure : Option String) → Prop
  | ends : CycleRun [] 0 [] none
  | pauses {pause since : Millis} (hpause : pause ≠ 0) :
      CycleRun [] pause [.pauses since (wakeTime since pause)] none
  | succeeds {call : Call σ} {calls : List (Call σ)} {pause : Millis} {events : List (LifeEvent σ)}
      {failure : Option String} (hrest : CycleRun calls pause events failure) :
      CycleRun (call :: calls) pause
        (.calls (.inCycle call) :: .returns (.inCycle call) none :: events) failure
  | goesOn {call : Call σ} {calls : List (Call σ)} {pause : Millis} {events : List (LifeEvent σ)}
      {failure : Option String} {what reason : String} (hlogged : call.onFailure = .logged what)
      (hrest : CycleRun calls pause events failure) :
      CycleRun (call :: calls) pause
        (.calls (.inCycle call) :: .returns (.inCycle call) (some reason) :: events) failure
  | fails {call : Call σ} {calls : List (Call σ)} {pause : Millis} {reason : String}
      (hfatal : call.onFailure = .fatal) :
      CycleRun (call :: calls) pause
        [.calls (.inCycle call), .returns (.inCycle call) (some reason)] (some reason)

/-- A cycle around the task that some random word selects. -/
def Template.Cycle (t : Template σ) (events : List (LifeEvent σ)) (failure : Option String) :
    Prop :=
  ∃ word, CycleRun (t.cycle (t.select word)) (t.select word).delayAfter events failure

/-- The cycles of a user that goes on until it is stopped, a cycle fails, or `left` cycles are done,
if that is bounded. -/
inductive Cycles (t : Template σ) : (left : Option Nat) → List (LifeEvent σ) →
    (failure : Option String) → Prop
  | stops {left : Option Nat} {active raised : Bool}
      (hstop : active = false ∨ raised = true ∨ left = some 0) :
      Cycles t left [.checks active raised] none
  | fails {left : Option Nat} {events : List (LifeEvent σ)} {reason : String}
      (hleft : left ≠ some 0) (hcycle : t.Cycle events (some reason)) :
      Cycles t left (.checks true false :: events) (some reason)
  | goesOn {left : Option Nat} {events rest : List (LifeEvent σ)} {failure : Option String}
      (hleft : left ≠ some 0) (hcycle : t.Cycle events none)
      (hrest : Cycles t (left.map (· - 1)) rest failure) :
      Cycles t left (.checks true false :: (events ++ rest)) failure

/-- How a life ends that is not cut short. -/
inductive Fate where
  | unmade (reason : String)
  | notSetUp (reason : String)
  /-- The cycles are over, and so is the tear-down. Either may have failed. -/
  | over (cycles tearDown : Option String)

def Fate.result : Fate → Option String
  | .unmade reason => some reason
  | .notSetUp reason => some reason
  | .over cycles tearDown => cycles.or tearDown

def tearingDown (failure : Option String) : List (LifeEvent σ) :=
  [.calls .tearDown, .returns .tearDown failure]

/-- A whole life: the set-up, and if that succeeds the cycles and the tear-down. A regular user goes
through one cycle and does not look whether it may. -/
inductive Life (t : Template σ) : Lifecycle → List (LifeEvent σ) → Fate → Prop
  | unmade {lifecycle : Lifecycle} {number : Nat} {reason : String}
      (hcreate : t.create number = .error reason) : Life t lifecycle [] (.unmade reason)
  | notSetUp {lifecycle : Lifecycle} {reason : String} :
      Life t lifecycle [.calls .setUp, .returns .setUp (some reason)] (.notSetUp reason)
  | regular {events : List (LifeEvent σ)} {failure second : Option String}
      (hcycle : t.Cycle events failure) :
      Life t .regular (.calls .setUp :: .returns .setUp none :: (events ++ tearingDown second))
        (.over failure second)
  | goesOn {lifecycle : Lifecycle} {events : List (LifeEvent σ)} {failure second : Option String}
      (hmode : lifecycle ≠ .regular)
      (hcycles : Cycles t (lifecycle.limit?.map UInt32.toNat) events failure) :
      Life t lifecycle (.calls .setUp :: .returns .setUp none :: (events ++ tearingDown second))
        (.over failure second)

/-! ### Observations -/

def Stage.callback : Stage σ → Callback σ
  | .setUp => .setUp
  | .cycle _ call _ _ => .inCycle call
  | .tearDown _ => .tearDown

/-- What begins when a user enters a phase at an instant. -/
def Phase.entered (now : Millis) : Phase σ → List (LifeEvent σ)
  | .calling stage _ => [.calls stage.callback]
  | .pausing _ _ wakeAt => [.pauses now wakeAt]
  | _ => []

namespace User

/-- The callback that the user is inside of, and how it returns at a step, if it does. -/
def returning? (u : User σ) (v : View) : Option (Callback σ × Option String) :=
  match u.phase with
  | .calling stage a =>
    match (a.step v.now (some v.run)).1 with
    | .returned _ failure => some (stage.callback, failure)
    | _ => none
  | _ => none

def isCalling (u : User σ) : Bool :=
  match u.phase with
  | .calling _ _ => true
  | _ => false

def isCycling (u : User σ) : Bool :=
  match u.phase with
  | .calling (.cycle _ _ _ _) _ => true
  | .pausing _ _ _ => true
  | _ => false

/-- Does the user look whether it may begin a cycle? -/
def isDeciding (u : User σ) : Bool :=
  match u.phase with
  | .deciding _ _ => true
  | _ => false

/-- What begins at a step: a callback, unless the user was inside it before, or a pause. -/
def beginning (u : User σ) (v : View) : List (LifeEvent σ) :=
  if u.isCalling && (u.returning? v).isNone then [] else (u.step v).1.phase.entered v.now

/-- What happens to the session of a user at a step. -/
def events (u : User σ) (v : View) : List (LifeEvent σ) :=
  ((u.returning? v).toList.map fun r => .returns r.1 r.2) ++
    (if u.isDeciding then [.checks v.active v.run.raised] else []) ++ u.beginning v

/-- Does the callback that the user is inside of panic at a step, or the making of its instance? -/
def panics (u : User σ) (v : View) : Bool :=
  match u.phase with
  | .arrived =>
    match u.template.create v.nextInstance with
    | .panic _ => true
    | _ => false
  | .calling _ a =>
    match (a.step v.now (some v.run)).1 with
    | .panicked => true
    | _ => false
  | _ => false

/-- Is the user's life cut short at a step? An abort does that once the user is suspended. -/
def isCutShort (u : User σ) (v : View) : Bool := v.aborted && u.isSuspended || u.panics v

end User

/-- What the last step of a life that is not cut short does. The result is reported if it is a
failure. -/
def Fate.effects (t : Template σ) (fate : Fate) : List Effect :=
  let report : List Effect :=
    fate.result.toList.map fun reason => .log ⟨.error, s!"Virtual user failed: {reason}"⟩
  match fate with
  | .unmade reason =>
    [.construct, .log ⟨.error, (BehaviorError.construction t.name reason).message⟩, .leave]
  | .over (some _) (some second) =>
    .log ⟨.error, s!"Tear down after a failed cycle also failed: {second}"⟩ ::
      (report ++ [.discard, .leave])
  | _ => report ++ [.discard, .leave]

/-! ### Surroundings -/

/-- What a user meets as it takes its steps, counted from 0: when it is asked to stop, when the stop
signal of its run is raised and when it is aborted, if ever, and how the world is apart from that.
-/
structure Surroundings where
  now : Nat → Millis
  runId : String
  watchInterval : Millis
  succeeded : Nat → Nat
  failed : Nat → Nat
  nextId : Nat → UserId
  nextInstance : Nat → Nat
  stop? : Option Nat
  raise? : Option Nat
  abort? : Option Nat

namespace Surroundings

def isPast (moment? : Option Nat) (k : Nat) : Bool := moment?.any (· ≤ k)

def view (s : Surroundings) (k : Nat) : View where
  now := s.now k
  run :=
    { runId := s.runId
      raised := isPast s.raise? k
      succeeded := s.succeeded k
      failed := s.failed k
      watchInterval := s.watchInterval }
  active := !isPast s.stop? k
  aborted := isPast s.abort? k
  nextId := s.nextId k
  nextInstance := s.nextInstance k

def after (s : Surroundings) (u : User σ) : Nat → User σ
  | 0 => u
  | k + 1 => ((s.after u k).step (s.view k)).1

/-- What has happened to the session of a user in a number of steps. -/
def history (s : Surroundings) (u : User σ) : Nat → List (LifeEvent σ)
  | 0 => []
  | k + 1 => s.history u k ++ (s.after u k).events (s.view k)

def cutsShort (s : Surroundings) (u : User σ) (k : Nat) : Bool :=
  (s.after u k).isCutShort (s.view k)

end Surroundings

end LoadTest
