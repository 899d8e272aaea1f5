import LoadTest.Log
import LoadTest.Run.Basic

/-!
# Operations on a run

Operations change the population of a run, or wait for it. An operation in progress is an agenda of
errands, worked off one at a time; an errand may put others in its place. Between two errands an
operation may be on hold.
-/

namespace LoadTest

/-- A change of one user at a time. -/
inductive Change where
  | create (lifecycle : Lifecycle)
  | remove (mode : Mode)
  deriving DecidableEq, Repr

def Change.noun : Change → String
  | .create _ => "creation"
  | .remove _ => "removal"

/-- One item on the agenda of an operation. -/
inductive Errand where
  /-- Launch users, and wait until they are in the pool. -/
  | create (amount : Nat) (lifecycle : Lifecycle)
  /-- Ask the oldest users of a mode to stop. -/
  | remove (amount : Nat) (mode : Mode)
  /-- Make a change of some users, one at a time, spread over a duration. -/
  | spread (change : Change) (amount : Nat) (span : Millis)
  | delay (duration : Millis)
  | waitForAll
  | abort
  | raise
  /-- Let time pass, whether the stop signal is raised or not. -/
  | pass (duration : Millis)
  /-- Carry out work units one after another. -/
  | scenario (units : List WorkUnit)
  | count (amount : Nat) (mode : Mode)
  /-- Make what is left of a spread change. -/
  | paced (change : Change) (left : Nat) (step : Millis)
  /-- Pause within a spread change. -/
  | pause (change : Change) (left : Nat) (step : Millis)
  /-- Go on after a pause, if it was not cut short. -/
  | resume (change : Change) (left : Nat) (step wakeAt : Millis)
  /-- Carry out what is left of a scenario. -/
  | units (left : List WorkUnit) (since : Millis)
  /-- Sum up a scenario. -/
  | conclude (since : Millis)
  deriving Repr

/-- One change of a spread one. -/
def Change.errand : Change → Errand
  | .create lifecycle => .create 1 lifecycle
  | .remove mode => .remove 1 mode

def WorkUnit.errand : WorkUnit → Errand
  | .create amount lifecycle none => .create amount lifecycle
  | .create amount lifecycle (some span) => .spread (.create lifecycle) amount span
  | .remove amount mode none => .remove amount mode
  | .remove amount mode (some span) => .spread (.remove mode) amount span
  | .delay duration => .delay duration
  | .waitForAll => .waitForAll

/-- What an operation waits for. -/
inductive Hold where
  | free
  /-- Users that were launched are to arrive in the pool. -/
  | arrivals (first amount : Nat)
  /-- An instant is to come, or the stop signal to be raised. -/
  | pause (wakeAt : Millis)
  | clock (wakeAt : Millis)
  | empty
  deriving DecidableEq, Repr

def Hold.isOver (now : Millis) (r : Run) : Hold → Bool
  | .free => true
  | .arrivals first amount => r.haveArrived first amount
  | .pause wakeAt => wakeAt ≤ now || r.isRaised
  | .clock wakeAt => wakeAt ≤ now
  | .empty => r.pool.count == 0

/-- The instant at which a wait is over by itself, if there is one. -/
def Hold.deadline? : Hold → Option Millis
  | .pause wakeAt => some wakeAt
  | .clock wakeAt => some wakeAt
  | _ => none

/-- What an operation has come to. -/
inductive Outcome where
  | done
  /-- Whether the stop signal was raised by this operation. -/
  | raised (first : Bool)
  | statistics (s : RunStatistics)
  | failed (e : ExecutionError)
  /-- There was nothing to carry out. -/
  | uncompiled (e : CompileError)
  /-- It was given up at its limit. -/
  | timedOut
  deriving DecidableEq, Repr

/-- An operation in progress. -/
structure Operation where
  id : Nat
  /-- The place of its run. -/
  run : Nat
  agenda : List Errand
  hold : Hold := .free
  /-- The instant at which it is given up, if it is not done. -/
  limit : Option Millis := none
  outcome : Outcome := .done
  deriving Repr

/-- What a step of an operation does beside changing its run. -/
inductive Act where
  | log (m : Message)
  | launch (ticket : Nat) (lifecycle : Lifecycle)
  | publish
  deriving DecidableEq, Repr

namespace Errand

/-- What an errand comes to: the run after it, the errands in its place, and what holds them. -/
structure Result where
  run : Run
  next : List Errand := []
  hold : Hold := .free
  acts : List Act := []
  outcome : Option Outcome := none

def perform (now : Millis) (r : Run) : Errand → Result
  | .create amount lifecycle =>
    if r.isRaised then { run := r }
    else
      let (tickets, r') := r.launch amount
      { run := r'
        next := [.count amount lifecycle.mode]
        hold := .arrivals r.launched amount
        acts := tickets.map (.launch · lifecycle) }
  | .count amount mode =>
    { run := { r with created := r.created + amount }
      acts := [.log ⟨.debug, s!"Created {amount} {mode.name} user(s)"⟩] }
  | .remove amount mode =>
    if r.isRaised then { run := r }
    else
      let (taken, pool) := r.pool.take amount mode
      let removed := taken.length
      let few :=
        if removed < amount then
          let wanted := s!"Requested removal of {amount} {mode.name} user(s)"
          [Act.log ⟨.info, s!"{wanted} but only {removed} are live"⟩]
        else []
      { run :=
          { r with
            pool := pool.update .requestStop (taken.map Member.id)
            removed := r.removed + removed }
        acts := .publish :: few ++ [.log ⟨.debug, s!"Removed {removed} {mode.name} user(s)"⟩] }
  | .spread change amount span =>
    match stepDelay amount (.ofMillis span) with
    | .error e => { run := r, outcome := some (.failed e) }
    | .ok step =>
      let every := (Duration.ofMillis step).humanText
      let text := match change with
        | .create lifecycle =>
          s!"Creating {amount} {lifecycle.mode.name} user(s), one every {every}"
        | .remove mode => s!"Removing {amount} {mode.name} user(s), one every {every}"
      { run := r, next := [.paced change amount step], acts := [.log ⟨.debug, text⟩] }
  | .paced _ 0 _ => { run := r }
  | .paced change (left + 1) step =>
    if r.isRaised then
      { run := r
        acts := [.log ⟨.debug, s!"Stop signal raised, abandoning {change.noun} over time"⟩] }
    else { run := r, next := [change.errand, .pause change left step] }
  | .pause change left step =>
    { run := r
      next := [.resume change left step (wakeTime now step)]
      hold := .pause (wakeTime now step) }
  | .resume change left step wakeAt =>
    { run := r, next := if wakeAt ≤ now then [.paced change left step] else [] }
  | .delay duration => { run := r, hold := .pause (wakeTime now duration) }
  | .waitForAll =>
    { run := r
      hold := .empty
      acts := [.log ⟨.debug, s!"Waiting for {r.pool.count} user(s) to finish"⟩] }
  | .abort =>
    let (aborted, pool) := r.pool.abortAll
    { run := { r with pool }, acts := [.log ⟨.debug, s!"Aborted {aborted} user(s)"⟩] }
  | .raise =>
    let (first, r) := r.raise
    { run := r, outcome := some (.raised first) }
  | .pass duration => { run := r, hold := .clock (wakeTime now duration) }
  | .scenario work =>
    { run := r
      next := [.units work now]
      acts := [.log ⟨.info, s!"Running {work.length} work unit(s)"⟩] }
  | .units [] since => { run := r, next := [.conclude since] }
  | .units (unit :: left) since =>
    if r.isRaised then
      let skipped := left.length + 1
      { run := r
        next := [.conclude since]
        acts :=
          [.log ⟨.info, s!"Stop signal raised, skipping the remaining {skipped} work unit(s)"⟩] }
    else { run := r, next := [unit.errand, .units left since] }
  | .conclude since =>
    let s := r.statistics (now - since)
    let elapsed := (Duration.ofMillis s.elapsed).humanText
    let counts := s!"{s.created} created, {s.removed} removed, peak {s.peak}"
    { run := r
      acts := [.log ⟨.info, s!"Scenario complete in {elapsed} ({counts})"⟩]
      outcome := some (.statistics s) }

end Errand

namespace Operation

def isEnded (o : Operation) : Bool := o.agenda.isEmpty && o.hold == .free

/-- Has the time come to give up? -/
def isLate (o : Operation) (now : Millis) : Bool := o.limit.any (· ≤ now)

def isReady (o : Operation) (now : Millis) (r : Run) : Bool := o.hold.isOver now r || o.isLate now

/-- One step of an operation: the end of a hold or an errand. It gives up if it is still on hold at
its limit. A failure or a summary ends it. -/
def step (o : Operation) (now : Millis) (r : Run) : Run × Operation × List Act :=
  if !o.hold.isOver now r then
    (r, { o with agenda := [], hold := .free, outcome := .timedOut }, [])
  else
    match o.agenda with
    | [] => (r, { o with hold := .free }, [])
    | errand :: rest =>
      let result := errand.perform now r
      match result.outcome with
      | some outcome =>
        (result.run, { o with agenda := [], hold := .free, outcome }, result.acts)
      | none =>
        (result.run, { o with agenda := result.next ++ rest, hold := result.hold }, result.acts)

end Operation

end LoadTest
