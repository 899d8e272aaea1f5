/-!
# Lifecycles of virtual users

A user is created with a lifecycle, and removals pick users by the mode of it.
-/

namespace LoadTest

/-- Whole milliseconds of time. The clock has no finer instants, and what is waited for is over at
one of them; so every length of time that something waits for (a sleep, the pause after a task, a
delay, the interval of a watch) is one of whole milliseconds, and a length with a fraction of one is
none that can be given here. -/
abbrev Millis := Nat

/-- The longest single sleep: thirty years of 365 days. -/
def longestSleep : Millis := 946080000000

/-- The instant at which a sleep that begins now is over. A sleep that is to be longer than the
longest one is cut to it. -/
def wakeTime (now duration : Millis) : Millis := now + min duration longestSleep

/-- A sleep that is not too long takes as long as it is to take. -/
theorem wakeTime_eq_add {now duration : Millis} (h : duration ≤ longestSleep) :
    wakeTime now duration = now + duration := by
  rw [wakeTime, Nat.min_eq_left h]

theorem le_wakeTime (now duration : Millis) : now ≤ wakeTime now duration := Nat.le_add_right ..

/-- How long a virtual user goes on. -/
inductive Mode where
  | regular
  /-- Cycles until stopped. -/
  | looped
  /-- Cycles until stopped or until a fixed number of cycles is done. -/
  | cycled
  deriving DecidableEq, Repr, Inhabited

def Mode.name : Mode → String
  | .regular => "regular"
  | .looped => "looped"
  | .cycled => "cycled"

/-- What a new user will do. The number of cycles is a 32-bit one. -/
inductive Lifecycle where
  | regular
  | looped
  | cycled (cycles : UInt32)
  deriving DecidableEq, Repr, Inhabited

def Lifecycle.mode : Lifecycle → Mode
  | .regular => .regular
  | .looped => .looped
  | .cycled _ => .cycled

/-- The bound on the number of cycles, if there is one. -/
def Lifecycle.limit? : Lifecycle → Option UInt32
  | .cycled n => some n
  | _ => none

end LoadTest
