import LoadTest.Scenario.Normal
import LoadTest.Scenario.Statement
import LoadTest.WorkUnit

/-!
# Compiling scenarios

A command turns one statement into work units. The commands stand in a registry under keywords in
lower case, and a text is compiled statement by statement. What is being compiled is a draft: the
work units so far and the notes of the commands. A fault ends the compilation but leaves the draft
as it is.
-/

namespace LoadTest

/-- The outcome so far of compiling a text. -/
structure Draft (ν : Type) where
  units : Array WorkUnit := #[]
  notes : Array ν := #[]

/-- A part of the compilation: it may add to the draft and may fail. -/
abbrev Drafting (ν α : Type) := EStateM CompileError (Draft ν) α

namespace Drafting

variable {ν α : Type}

def emit (unit : WorkUnit) : Drafting ν Unit := fun d =>
  .ok () { d with units := d.units.push unit }

def note (n : ν) : Drafting ν Unit := fun d =>
  .ok () { d with notes := d.notes.push n }

def count : Drafting ν Nat := fun d => .ok d.units.size d

/-- Append a list of work units `times` times. -/
def emitTimes (units : Array WorkUnit) : (times : Nat) → Drafting ν Unit
  | 0 => pure ()
  | n + 1 => fun d => emitTimes units n { d with units := d.units ++ units }

/-- Do the work on the side: its work units are the result, and the draft keeps only its notes. -/
def aside (work : Drafting ν Unit) : Drafting ν (Array WorkUnit) := fun d =>
  match work { d with units := #[] } with
  | .ok _ d' => .ok d'.units { d' with units := d.units }
  | .error e d' => .error e { d' with units := d.units }

/-- Take over a value or a fault. -/
def ofExcept : Except CompileError α → Drafting ν α
  | .ok a => pure a
  | .error e => throw e

end Drafting

/-- A command: how its statements end, and what it makes of one. It may give a work unit to append,
and a block command may compile its body, which is the second argument of its handler. -/
structure Command (ν : Type) where
  form : Form
  handler : Statement → Option (Drafting ν Unit) → Drafting ν (Option WorkUnit)

def Command.description {ν : Type} (c : Command ν) : String :=
  let form := match c.form with | .simple => "Simple" | .block => "Block"
  s!"Command \x7b syntax: {form}, .. \x7d"

/-- The known commands, by keyword. -/
structure Registry (ν : Type) where
  commands : List (List Char × Command ν)

namespace Registry

variable {ν : Type}

def empty : Registry ν := ⟨[]⟩

/-- The command under a keyword, which is looked up as it stands. -/
def find? (r : Registry ν) (keyword : List Char) : Option (Command ν) := r.commands.lookup keyword

/-- Add a command under the lower case of a keyword, unless that is taken. -/
def enter (r : Registry ν) (keyword : String) (command : Command ν) :
    Except CompileError Unit × Registry ν :=
  let keyword := Text.lower keyword.toList
  match r.find? keyword with
  | some _ => (.error (.duplicateCommand (String.ofList keyword)), r)
  | none => (.ok (), ⟨r.commands ++ [(keyword, command)]⟩)

/-- The registry with one more command, for those who have no use for it after an error. -/
def register (r : Registry ν) (keyword : String) (command : Command ν) :
    Except CompileError (Registry ν) :=
  (r.enter keyword command).1.map fun _ => (r.enter keyword command).2

/-- The keywords, in the order of their characters. -/
def keywords (r : Registry ν) : List String :=
  (r.commands.map fun c => String.ofList c.1).mergeSort fun a b => !decide (b < a)

/-- Compile normalized text, statement by statement. -/
def compileBlock (r : Registry ν) (text : List Char) : Drafting ν Unit :=
  if text = [] then
    pure ()
  else
    match locate r.find? Command.form text with
    | .error e => throw e
    | .ok found => do
      let body : Option (Drafting ν Unit) :=
        match h : found.statement.body with
        | none => none
        | some b =>
          have := found.body_lt_input h
          some (r.compileBlock b)
      match ← found.command.handler found.statement body with
      | some unit => Drafting.emit unit
      | none => pure ()
      have := found.rest_lt
      r.compileBlock found.rest
termination_by text.length

/-- Compile a scenario text. There are no work units unless all of it compiles, but the notes stay.
-/
def draft (r : Registry ν) (scenario : String) : Except CompileError (Array WorkUnit) × Array ν :=
  match normalize scenario with
  | .error e => (.error e, #[])
  | .ok text =>
    match r.compileBlock text {} with
    | .ok _ d => (.ok d.units, d.notes)
    | .error e d => (.error e, d.notes)

def compile (r : Registry ν) (scenario : String) : Except CompileError (Array WorkUnit) :=
  (r.draft scenario).1

end Registry

end LoadTest
