import LoadTest.Scenario.Compile
import LoadTest.Scenario.Params

/-!
# The built-in commands

Creating and removing users, at once or over time, delays, repetitions, and waiting for the users to
finish.
-/

namespace LoadTest

open Text

variable {ν : Type}

/-- The duration over which a command spreads its users. There has to be one user at least. -/
def spread (p : Params) (amount : Nat) : Except CompileError Millis :=
  if amount = 0 then .error (.zeroAmount (String.ofList p.statement)) else p.duration

/-- The duration of a timed command, and none of a command that acts at once. -/
def spanOf (p : Params) (amount : Nat) (timed : Bool) : Except CompileError (Option Millis) :=
  if timed then some <$> spread p amount else pure none

/-- The lifecycle of the users to create. Only cycled users take a parameter for it. -/
def lifecycleOf (p : Params) : Mode → Except CompileError Lifecycle
  | .regular => .ok .regular
  | .looped => .ok .looped
  | .cycled => do return .cycled (UInt32.ofNat (← p.required "cyclestorun" (readNat 32)))

def createUnit (mode : Mode) (timed : Bool) (s : Statement) : Except CompileError WorkUnit := do
  let p ← Params.ofStatement s
  let amount ← p.required "amount" (readNat 64)
  let lifecycle ← lifecycleOf p mode
  return .create amount lifecycle (← spanOf p amount timed)

def removeUnit (mode : Mode) (timed : Bool) (s : Statement) : Except CompileError WorkUnit := do
  let p ← Params.ofStatement s
  let amount ← p.required "amount" (readNat 64)
  return .remove amount mode (← spanOf p amount timed)

def delayUnit (s : Statement) : Except CompileError WorkUnit := do
  let p ← Params.ofStatement s
  return .delay (← p.duration)

/-- A command without a body that stands for one work unit. -/
def Command.unit (meaning : Statement → Except CompileError WorkUnit) : Command ν where
  form := .simple
  handler s _ := some <$> Drafting.ofExcept (meaning s)

/-- Repeats the work units of its body. The body is compiled once, also for no repetition at all, so
that its faults always show; and a scenario may not grow past the bound by a repetition. -/
def Command.repeated : Command ν where
  form := .block
  handler s body := do
    let p ← Drafting.ofExcept (Params.ofStatement s)
    let times ← Drafting.ofExcept (p.required "times" (readNat 32))
    match body with
    | none => throw (s.malformed .noBlock)
    | some body =>
      let units ← Drafting.aside body
      if units.size * times + (← Drafting.count) > maxWorkUnits then
        throw (p.invalid "times" (toString times))
      if units.isEmpty then pure () else Drafting.emitTimes units times
      return none

/-- The built-in commands, by keyword. -/
def builtin : Registry ν where
  commands :=
    [ ("createusers".toList, .unit (createUnit .regular false)),
      ("createusersovertime".toList, .unit (createUnit .regular true)),
      ("createcycledusers".toList, .unit (createUnit .cycled false)),
      ("createcycledusersovertime".toList, .unit (createUnit .cycled true)),
      ("removecycledusers".toList, .unit (removeUnit .cycled false)),
      ("removecycledusersovertime".toList, .unit (removeUnit .cycled true)),
      ("createloopedusers".toList, .unit (createUnit .looped false)),
      ("createloopedusersovertime".toList, .unit (createUnit .looped true)),
      ("removeloopedusers".toList, .unit (removeUnit .looped false)),
      ("removeloopedusersovertime".toList, .unit (removeUnit .looped true)),
      ("delay".toList, .unit delayUnit),
      ("repeat".toList, .repeated),
      ("waitforallclientstofinish".toList, .unit fun _ => .ok .waitForAll) ]

end LoadTest
