import LoadTest.Text.Integer

/-!
# Command line flags

`-p`, `-b` and `-s` take a value, as do their long forms and `--run-id`; `--no-stdin`, `-h` and `-V`
take none. A value follows as the next argument, or after `=`, or right after a short flag; a switch
can be followed by other short flags. A flag may be given once. There are no other arguments.
-/

namespace LoadTest

def defaultPort : Nat := 7621

/-- Flags with a value. -/
inductive ValueFlag where
  | port
  | behavior
  | scenario
  | runId
  deriving DecidableEq, Repr

/-- Flags without a value. -/
inductive Switch where
  | noStdin
  | help
  | version
  deriving DecidableEq, Repr

/-- What the command line says. -/
structure Flags where
  port : Nat := defaultPort
  behavior : Option String := none
  scenario : Option String := none
  runId : Option String := none
  noStdin : Bool := false
  deriving DecidableEq, Repr, Inhabited

/-- Why a command line is not accepted, or what it asks for instead. -/
inductive FlagError where
  | unknownArgument
  /-- A value that the flag can not have. -/
  | valueValidation
  /-- A value is missing. -/
  | invalidValue
  /-- A flag is given twice. -/
  | argumentConflict
  /-- A switch is given a value. -/
  | tooManyValues
  | displayHelp
  | displayVersion
  deriving DecidableEq, Repr

/-- Is the command line refused, rather than asking for something else? -/
def FlagError.isRefusal (e : FlagError) : Bool := e != .displayHelp && e != .displayVersion

/-- The flags that there are, with what they are for. -/
def flagsHelp : String :=
  "\n".intercalate
    [ "-p, --port <number>     the port of the service",
      "-b, --behavior <name>   the behavior to run right away",
      "-s, --scenario <text>   the scenario of that run",
      "--run-id <id>           the id of that run",
      "--no-stdin              read no commands from standard input",
      "-h, --help              show this text",
      "-V, --version           show the version" ]

/-- The answer to a command line that does not start the service. -/
def FlagError.message : FlagError → String
  | .unknownArgument => "There is no such argument."
  | .valueValidation => "A port is a number from 0 to 65535."
  | .invalidValue => "The value of a flag is missing."
  | .argumentConflict => "A flag is given twice."
  | .tooManyValues => "A switch takes no value."
  | .displayHelp => flagsHelp
  | .displayVersion => "0.1.0"

namespace Flags

def long? (name : List Char) : Option (ValueFlag ⊕ Switch) :=
  if name = "port".toList then some (.inl .port)
  else if name = "behavior".toList then some (.inl .behavior)
  else if name = "scenario".toList then some (.inl .scenario)
  else if name = "run-id".toList then some (.inl .runId)
  else if name = "no-stdin".toList then some (.inr .noStdin)
  else if name = "help".toList then some (.inr .help)
  else if name = "version".toList then some (.inr .version)
  else none

def short? : Char → Option (ValueFlag ⊕ Switch)
  | 'p' => some (.inl .port)
  | 'b' => some (.inl .behavior)
  | 's' => some (.inl .scenario)
  | 'h' => some (.inr .help)
  | 'V' => some (.inr .version)
  | _ => none

/-- A command line in reading. -/
structure Progress where
  flags : Flags := {}
  /-- The flags with a value that have had it. -/
  given : List ValueFlag := []
  /-- A flag whose value has not been taken in, with the value if it has been seen. -/
  pending : Option (ValueFlag × Option (List Char)) := none
  deriving Repr

def setValue (f : Flags) (flag : ValueFlag) (value : List Char) : Except FlagError Flags :=
  match flag with
  | .port =>
    match Text.readInt 64 value with
    | some n =>
      if 0 ≤ n ∧ n < 65536 then .ok { f with port := n.toNat } else .error .valueValidation
    | none => .error .valueValidation
  | .behavior => .ok { f with behavior := some (String.ofList value) }
  | .scenario => .ok { f with scenario := some (String.ofList value) }
  | .runId => .ok { f with runId := some (String.ofList value) }

/-- Take in a flag with its value. -/
def take (p : Progress) (flag : ValueFlag) (value : List Char) : Except FlagError Progress :=
  if flag ∈ p.given then .error .argumentConflict
  else (setValue p.flags flag value).map fun flags => { p with flags, given := flag :: p.given }

/-- Take in the pending flag. -/
def resolve (p : Progress) : Except FlagError Progress :=
  match p.pending with
  | none => .ok p
  | some (_, none) => .error .invalidValue
  | some (flag, some value) => take { p with pending := none } flag value

def turn (p : Progress) (s : Switch) : Except FlagError Progress := do
  let p ← resolve p
  match s with
  | .help => throw .displayHelp
  | .version => throw .displayVersion
  | .noStdin =>
    if p.flags.noStdin then throw .argumentConflict
    return { p with flags := { p.flags with noStdin := true } }

/-- A flag with a value, which may be attached to it. -/
def begin (p : Progress) (flag : ValueFlag) (attached : Option (List Char)) :
    Except FlagError Progress := do
  let p ← resolve p
  match attached with
  | some value => take p flag value
  | none => return { p with pending := some (flag, none) }

/-- A long flag, whose two dashes have been read. -/
def readLong (p : Progress) (text : List Char) : Except FlagError Progress :=
  let name := text.takeWhile (· ≠ '=')
  let attached := match text.dropWhile (· ≠ '=') with
    | _ :: value => some value
    | [] => none
  match long? name, attached with
  | none, _ => .error .unknownArgument
  | some (.inl flag), attached => begin p flag attached
  | some (.inr s), none => turn p s
  | some (.inr _), some _ => .error .tooManyValues

/-- Short flags, whose dash has been read. -/
def readShort (p : Progress) : List Char → Except FlagError Progress
  | [] => .ok p
  | c :: rest =>
    match short? c with
    | none => .error .unknownArgument
    | some (.inr s) => turn p s >>= fun p => readShort p rest
    | some (.inl flag) =>
      match rest with
      | [] => begin p flag none
      | '=' :: value => begin p flag (some value)
      | value => begin p flag (some value)

/-- A plain argument. It can only be a value. -/
def readPlain (p : Progress) (text : List Char) : Except FlagError Progress :=
  match p.pending with
  | some (flag, none) => .ok { p with pending := some (flag, some text) }
  | _ => .error .unknownArgument

/-- Read the arguments one by one. Nothing may follow two dashes that stand alone. -/
def readAll (p : Progress) : List (List Char) → Except FlagError Progress
  | [] => resolve p
  | text :: rest =>
    match text with
    | ['-', '-'] => if rest.isEmpty then resolve p else .error .unknownArgument
    | '-' :: '-' :: text => readLong p text >>= fun p => readAll p rest
    | '-' :: c :: text => readShort p (c :: text) >>= fun p => readAll p rest
    | _ => readPlain p text >>= fun p => readAll p rest

/-- Read a command line, without the name of the program. -/
def ofArguments (args : List String) : Except FlagError Flags :=
  (readAll {} (args.map String.toList)).map Progress.flags

end Flags

end LoadTest
