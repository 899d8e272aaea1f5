import LoadTest.Scenario.Builtin

/-!
# Commands for looking at statements

Small commands that note what they are given, refuse it, or compile their body more than once, and
questions about the parameters of a statement.
-/

namespace LoadTest

open Text

/-- What an inspecting command has noted. -/
inductive Sighting where
  | statement (s : Statement)
  | params (p : Except CompileError Params)

inductive Inspector where
  | noop
  | echo
  | reject
  /-- A delay, by the duration of the statement. -/
  | delay
  /-- Compiles its body twice, and then waits for all users. -/
  | twice
  /-- Reads the parameters and notes them. -/
  | probe
  deriving DecidableEq, Repr

def Inspector.command (i : Inspector) (form : Form) : Command Sighting where
  form
  handler s body :=
    match i with
    | .noop => return none
    | .echo => do
      Drafting.note (.statement s)
      return none
    | .reject => throw (s.malformed (.other "rejected by handler"))
    | .delay => some <$> Drafting.ofExcept (delayUnit s)
    | .twice =>
      match body with
      | none => throw (s.malformed (.other "needs a body"))
      | some body => do
        body
        body
        return some .waitForAll
    | .probe => do
      let p := Params.ofStatement s
      Drafting.note (.params p)
      let _ ← Drafting.ofExcept p
      return none

/-- The types that a parameter can be read as. -/
inductive ValueKind where
  | unsigned (bits : Nat)
  | signed (bits : Nat)
  | truth
  | character
  | text
  /-- The duration that all parameters of the statement make up. -/
  | duration
  deriving DecidableEq, Repr

/-- A question about the parameters of a statement. -/
structure Query where
  name : String
  kind : ValueKind
  required : Bool
  deriving DecidableEq, Repr

/-- The value read by a query, as a text or as a number of milliseconds. -/
inductive Answer where
  | text (value : String)
  | millis (duration : Millis)
  deriving DecidableEq, Repr

def readBool (s : List Char) : Option Bool :=
  if s = "true".toList then some true else if s = "false".toList then some false else none

def readChar : List Char → Option Char
  | [c] => some c
  | _ => none

/-- The reader of a type, with the value written out again. -/
def ValueKind.read : ValueKind → List Char → Option String
  | .unsigned bits, s => (readNat bits s).map toString
  | .signed bits, s => (readInt bits s).map toString
  | .truth, s => (readBool s).map toString
  | .character, s => (readChar s).map fun c => String.ofList [c]
  | .text, s => some (String.ofList s)
  | .duration, _ => none

/-- The answer to a query; none if an optional parameter is absent. -/
def Params.answer (p : Params) (q : Query) : Except CompileError (Option Answer) :=
  if q.kind = .duration then (fun d => some (.millis d)) <$> p.duration
  else if q.required then (fun v => some (.text v)) <$> p.required q.name q.kind.read
  else (Option.map Answer.text) <$> p.optional q.name q.kind.read

end LoadTest
