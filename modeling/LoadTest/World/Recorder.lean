import LoadTest.Behavior.Activation
import LoadTest.Log
import LoadTest.Population.User
import LoadTest.Rounding

/-!
# Recordings

What can be noticed of a load test from outside: the events that behaviors report, log messages, and
metrics. Each carries the instant at which it happened.
-/

namespace LoadTest

/-- Something that an instance of a behavior reported. -/
structure Event where
  time : Millis
  behavior : String
  instanceNumber : Nat
  label : String
  deriving DecidableEq, Repr, Inhabited

/-- A log message, with the user that logged it, if it was one. -/
structure Entry where
  time : Millis
  message : Message
  user : String := ""
  deriving DecidableEq, Repr

/-- A gauge: its last value and its greatest. -/
structure Gauge where
  last : Nat
  greatest : Nat
  deriving DecidableEq, Repr, Inhabited

/-- What is recorded under one metric name. -/
inductive Metric where
  | counter (count : Nat)
  | gauge (g : Gauge)
  /-- The values of a histogram, latest first. -/
  | histogram (values : List Nat)
  deriving DecidableEq, Repr

/-- The name of the gauge for the live users of a behavior. -/
def liveUsersGauge (behavior : String) : String := s!"stampede_{behavior}_live_users"

/-- The message that a user has entered an aborted pool. -/
def Message.late (id : UserId) : Message :=
  ⟨.debug, s!"User {id} started after the pool was aborted"⟩

structure Recorder where
  events : Array Event := #[]
  entries : Array Entry := #[]
  metrics : List (String × Metric) := []
  deriving Inhabited

namespace Recorder

def event (r : Recorder) (e : Event) : Recorder := { r with events := r.events.push e }

def log (r : Recorder) (time : Millis) (m : Message) (user : String := "") : Recorder :=
  { r with entries := r.entries.push ⟨time, m, user⟩ }

/-- Change the metric of a name, which may not be there yet. -/
def alter (name : String) (f : Option Metric → Metric) :
    List (String × Metric) → List (String × Metric)
  | [] => [(name, f none)]
  | (n, m) :: ms => if n = name then (n, f (some m)) :: ms else (n, m) :: alter name f ms

def increment (r : Recorder) (name : String) : Recorder :=
  { r with
    metrics := alter name
      (fun
        | some (.counter n) => .counter (n + 1)
        | _ => .counter 1)
      r.metrics }

def setGauge (r : Recorder) (name : String) (value : Nat) : Recorder :=
  { r with
    metrics := alter name
      (fun
        | some (.gauge g) => .gauge ⟨value, max g.greatest value⟩
        | _ => .gauge ⟨value, value⟩)
      r.metrics }

def observe (r : Recorder) (name : String) (value : Nat) : Recorder :=
  { r with
    metrics := alter name
      (fun
        | some (.histogram values) => .histogram (value :: values)
        | _ => .histogram [value])
      r.metrics }

/-- Record the end of a transaction: its latency in nanoseconds, as a double, and its success or
failure. -/
def transaction (r : Recorder) (labels : Labels) (succeeded : Bool) (elapsed : Millis) : Recorder :=
  (r.observe labels.latency (roundToDouble (Duration.ofMillis elapsed).nanos)).increment
    (if succeeded then labels.success else labels.error)

/-! ### Reading a recording -/

/-- Events by time, behavior and instance. Those of one instance at one time keep their order. -/
def Event.precedes (a b : Event) : Bool :=
  if a.time ≠ b.time then a.time < b.time
  else if a.behavior ≠ b.behavior then decide (a.behavior < b.behavior)
  else a.instanceNumber ≤ b.instanceNumber

def sortedEvents (r : Recorder) : List Event := r.events.toList.mergeSort Event.precedes

/-- Messages by time, level, user and text. -/
def Entry.precedes (a b : Entry) : Bool :=
  if a.time ≠ b.time then a.time < b.time
  else if a.message.level ≠ b.message.level then
    decide (a.message.level.name < b.message.level.name)
  else if a.user ≠ b.user then decide (a.user < b.user)
  else !decide (b.message.text < a.message.text)

def sortedEntries (r : Recorder) : List Entry := r.entries.toList.mergeSort Entry.precedes

/-- How often each label was reported, by behavior and label. -/
def eventCounts (r : Recorder) : List (String × Nat) :=
  r.events.foldl
    (fun counts e =>
      let name := s!"{e.behavior}.{e.label}"
      match counts.lookup name with
      | none => (name, 1) :: counts
      | some _ => counts.map fun (n, k) => if n = name then (n, k + 1) else (n, k))
    []

end Recorder

end LoadTest
