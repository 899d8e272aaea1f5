/-!
# Log messages

What the library reports while it works: a level and a text.
-/

namespace LoadTest

/-- How grave a message is. -/
inductive Level where
  | debug
  | info
  | warn
  | error
  deriving DecidableEq, Repr

def Level.name : Level → String
  | .debug => "DEBUG"
  | .info => "INFO"
  | .warn => "WARN"
  | .error => "ERROR"

structure Message where
  level : Level
  text : String
  deriving DecidableEq, Repr

end LoadTest
