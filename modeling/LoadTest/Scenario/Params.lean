import LoadTest.Lifecycle
import LoadTest.Scenario.Statement
import LoadTest.Text.Integer

/-!
# Parameters of a statement

The arguments of a statement are `name:value` items between commas. Empty items are skipped, the
first value bound to a name counts, and names that no command reads are ignored.
-/

namespace LoadTest

open Text

/-- The parameters of a statement, in the order in which they stand. -/
structure Params where
  statement : List Char
  bindings : List (List Char × List Char)
  deriving DecidableEq, Repr

namespace Params

/-- The items of an argument text: what stands between its commas and is not empty. -/
def items (args : List Char) : List (List Char) :=
  (splitAtAll ',' args).filter fun item => !item.isEmpty

/-- Read the arguments of a statement. An item without a colon is an error. -/
def ofStatement (s : Statement) : Except CompileError Params :=
  match (items s.args).mapM (splitAtFirst ':') with
  | some bindings => .ok ⟨s.text, bindings⟩
  | none => .error (s.malformed .unnamedArgument)

/-- The value bound to a name, by its first binding. -/
def value? (p : Params) (name : String) : Option (List Char) := p.bindings.lookup name.toList

def invalid (p : Params) (name : String) (value : String) : CompileError :=
  .invalidParameter (String.ofList p.statement) name value

def optional {α : Type} (p : Params) (name : String) (read : List Char → Option α) :
    Except CompileError (Option α) :=
  match p.value? name with
  | none => .ok none
  | some value =>
    match read value with
    | some a => .ok (some a)
    | none => .error (p.invalid name (String.ofList value))

def required {α : Type} (p : Params) (name : String) (read : List Char → Option α) :
    Except CompileError α :=
  match p.optional name read with
  | .ok (some a) => .ok a
  | .ok none => .error (.missingParameter (String.ofList p.statement) name)
  | .error e => .error e

/-- The parameters that make up a duration, with the milliseconds in one of each. -/
def durationUnits : List (String × Millis) :=
  [("hours", 3600000), ("minutes", 60000), ("seconds", 1000)]

/-- A duration in 64-bit milliseconds, with the hours, minutes or seconds of one parameter added.
The product and the sum have to fit as well. -/
def addUnit (p : Params) (total : Millis) (unit : String × Millis) : Except CompileError Millis :=
  match p.optional unit.1 (readNat 64) with
  | .error e => .error e
  | .ok none => .ok total
  | .ok (some count) =>
    match below (capacity 64) (count * unit.2) >>= fun part =>
      below (capacity 64) (total + part) with
    | some sum => .ok sum
    | none => .error (p.invalid unit.1 (toString count))

def duration (p : Params) : Except CompileError Millis := durationUnits.foldlM p.addUnit 0

end Params

end LoadTest
