/-!
# Faults of scenario text

The reasons why a text is not compiled, and their wording.
-/

namespace LoadTest

/-- What is wrong with the shape of a statement. -/
inductive Malformation where
  | noOpening
  | noClosing
  | noSemicolon
  | noBrace
  | unclosedBlock
  | unnamedArgument
  | noBlock
  /-- A reason given by a command of one's own. -/
  | other (reason : String)
  deriving DecidableEq, Repr

def Malformation.message : Malformation → String
  | .noOpening => "expected '(' after the command name"
  | .noClosing => "expected ')' after the arguments"
  | .noSemicolon => "expected ';' after the arguments"
  | .noBrace => "expected '\x7b' after the arguments"
  | .unclosedBlock => "block is missing its closing '\x7d'"
  | .unnamedArgument => "arguments must be name:value pairs"
  | .noBlock => "expected a '\x7b...\x7d' block"
  | .other reason => reason

/-- Why a scenario is not compiled. The statements quoted are parts of the normalized text. -/
inductive CompileError where
  | unknownCommand (keyword statement : String)
  | missingParameter (statement parameter : String)
  | invalidParameter (statement parameter value : String)
  | zeroAmount (statement : String)
  | malformed (statement : String) (reason : Malformation)
  | unterminatedComment
  | duplicateCommand (keyword : String)
  deriving DecidableEq, Repr

def CompileError.message : CompileError → String
  | .unknownCommand keyword statement => s!"Unknown command \"{keyword}\" in '{statement}'"
  | .missingParameter statement parameter =>
    s!"Command '{statement}' is missing required parameter \"{parameter}\""
  | .invalidParameter statement parameter value =>
    s!"Command '{statement}' has an invalid value \"{value}\" for parameter \"{parameter}\""
  | .zeroAmount statement => s!"Command '{statement}' spreads zero users over time"
  | .malformed statement reason => s!"Malformed statement '{statement}': {reason.message}"
  | .unterminatedComment => "Comment block opened but never closed"
  | .duplicateCommand keyword => s!"Command \"{keyword}\" is already registered"

end LoadTest
