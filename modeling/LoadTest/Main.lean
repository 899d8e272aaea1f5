import LoadTest.Service.DryRun

/-!
# The command line

Reads the flags and carries out a dry run. The commands of the operator are taken from standard
input up to its end, and the log goes to standard output.
-/

namespace LoadTest

/-- The bytes that are left in a stream, after those read so far. -/
partial def readBytes (stream : IO.FS.Stream) (sofar : ByteArray) : IO ByteArray := do
  let chunk ← stream.read 65536
  if chunk.isEmpty then return sofar else readBytes stream (sofar ++ chunk)

end LoadTest

/-- The exit code is 2 for flags that are not accepted, and 1 for a service that ends with an
error. -/
def main (args : List String) : IO UInt32 := do
  match LoadTest.Flags.ofArguments args with
  | .error e =>
    IO.println e.message
    return if e.isRefusal then 2 else 0
  | .ok flags =>
    let settings := LoadTest.Settings.ofFlags flags
    let input ← if settings.stdin then
        LoadTest.readBytes (← IO.getStdin) .empty
      else pure .empty
    let (result, lines) := settings.dryRun input.toList
    for line in lines do
      IO.println line
    match result with
    | .ok () => return 0
    | .error e =>
      IO.eprintln e.message
      return 1
