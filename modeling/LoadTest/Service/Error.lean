import LoadTest.Error
import LoadTest.Text.Utf8

/-!
# Errors of the service

What ends the service around a control of runs.
-/

namespace LoadTest

/-- Why the service ends with an error. -/
inductive ServiceError where
  | address
  | input (fault : Text.Utf8Fault)
  | control (e : ControlError)
  deriving DecidableEq, Repr

def ServiceError.message : ServiceError → String
  | .address => "Address Parsing Error"
  | .input fault => s!"IO error: {fault.message}"
  | .control e => s!"Run control failed: {e.message}"

end LoadTest
