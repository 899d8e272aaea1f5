import LoadTest.Control.Config
import LoadTest.Json.Value

/-!
# Requests for a run in JSON

A request is written as an object of four fields in a fixed order. It is read from an object with
its fields in any order, or from a list of their values in order; fields may be missing, apart from
the behavior, and others are ignored.
-/

namespace LoadTest

open Json

/-! ### Writing -/

def jsonText (s : String) : List Char := quote s.toList

def jsonOptionalText : Option String → List Char
  | some s => jsonText s
  | none => "null".toList

def RunConfig.encode (c : RunConfig) : List Char :=
  '\x7b' :: jsonText "behavior" ++ ':' :: jsonText c.behavior
    ++ ',' :: jsonText "run_id" ++ ':' :: jsonOptionalText c.runId
    ++ ',' :: jsonText "scenario" ++ ':' :: jsonOptionalText c.scenario
    ++ ',' :: jsonText "watch_interval" ++ ':' :: (toString c.watchInterval).toList ++ ['\x7d']

/-! ### Reading -/

/-- The fields read so far. -/
structure ConfigFields where
  behavior : Option String := none
  runId : Option (Option String) := none
  scenario : Option (Option String) := none
  watchInterval : Option Millis := none
  deriving DecidableEq, Repr

/-- The request that the fields make up. The behavior has to be there. -/
def ConfigFields.config? (f : ConfigFields) : Except Fault RunConfig :=
  match f.behavior with
  | none => .error .unfit
  | some behavior =>
    .ok
      { behavior
        runId := f.runId.getD none
        scenario := f.scenario.getD none
        watchInterval := f.watchInterval.getD defaultWatchInterval }

/-- Read the value of the field of a name. A field of the request may be there only once. -/
def ConfigFields.readField (f : ConfigFields) (name : List Char) (s : List Char) :
    Reading ConfigFields :=
  let value {α : Type} (old : Option α) (read : List Char → Reading α) (set : α → ConfigFields) :
      Reading ConfigFields :=
    if old.isSome then .error .unfit
    else
      match skipSpace s with
      | [] => .error .truncated
      | ':' :: s =>
        match read s with
        | .ok (a, rest) => .ok (set a, rest)
        | .error e => .error e
      | _ => .error .malformed
  if name = "behavior".toList then
    value f.behavior readText fun a => { f with behavior := some a }
  else if name = "run_id".toList then
    value f.runId readOptionalText fun a => { f with runId := some a }
  else if name = "scenario".toList then
    value f.scenario readOptionalText fun a => { f with scenario := some a }
  else if name = "watch_interval".toList then
    value f.watchInterval readNat fun a => { f with watchInterval := some a }
  else
    value (none : Option Unit)
      (fun s => (skip s).map fun rest => ((), rest)) fun _ => f

/-- Read the fields of an object and its closing brace. -/
def readFields : (fuel : Nat) → (first : Bool) → ConfigFields → List Char → Reading ConfigFields
  | 0, _, _, _ => .error .truncated
  | fuel + 1, first, f, s =>
    match skipSpace s with
    | [] => .error .truncated
    | '\x7d' :: s => .ok (f, s)
    | s@(c :: s') =>
      if !first && c ≠ ',' then .error .malformed
      else
        match skipSpace (if first then s else s') with
        | [] => .error .truncated
        | '"' :: s =>
          match readString s with
          | .error e => .error e
          | .ok (name, s) =>
            match f.readField name s with
            | .error e => .error e
            | .ok (f, s) => readFields fuel false f s
        | _ => .error .malformed

/-- Is there another item in a list? If there is, the answer is the text it begins with, and else
none. -/
def nextItem (first : Bool) (s : List Char) : Except Fault (Option (List Char)) :=
  match skipSpace s with
  | [] => .error .truncated
  | ']' :: _ => .ok none
  | s@(c :: s') =>
    if first then .ok (some s)
    else if c = ',' then
      match skipSpace s' with
      | [] => .error .truncated
      | ']' :: _ => .error .malformed
      | s => .ok (some s)
    else .error .malformed

/-- Read the next item of a list, if there is one. -/
def readItem {α : Type} (first : Bool) (read : List Char → Reading α) (s : List Char) :
    Reading (Option α) :=
  match nextItem first s with
  | .error e => .error e
  | .ok none => .ok (none, s)
  | .ok (some s) =>
    match read s with
    | .ok (a, rest) => .ok (some a, rest)
    | .error e => .error e

/-- Read the fields of a list and its closing bracket. Values may only be missing at the end. -/
def readItems (s : List Char) : Except Fault (ConfigFields × List Char) := do
  let (behavior, s) ← readItem true readText s
  if behavior.isNone then throw .unfit
  let (runId, s) ← readItem false readOptionalText s
  let (scenario, s) ← readItem false readOptionalText s
  let (watchInterval, s) ← readItem false readNat s
  match skipSpace s with
  | [] => throw .truncated
  | ']' :: s => return ({ behavior, runId, scenario, watchInterval }, s)
  | _ => throw .malformed

/-- Read a request from the front of a text. -/
def RunConfig.read (s : List Char) : Reading RunConfig :=
  let complete : Reading ConfigFields → Reading RunConfig
    | .error e => .error e
    | .ok (f, rest) => f.config?.map fun c => (c, rest)
  match skipSpace s with
  | '\x7b' :: s => complete (readFields (s.length + 1) true {} s)
  | '[' :: s => complete (readItems s)
  | s => .error (mismatch s)

/-- Read a request that is all of a text. -/
def RunConfig.decode (s : List Char) : Except Fault RunConfig :=
  match RunConfig.read s with
  | .error e => .error e
  | .ok (c, rest) => if skipSpace rest = [] then .ok c else .error .malformed

end LoadTest
