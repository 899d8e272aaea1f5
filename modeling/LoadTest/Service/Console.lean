import LoadTest.Control.Basic
import LoadTest.Log
import LoadTest.Service.Error
import LoadTest.Text.Blank

/-!
# The console

An operator types commands line by line. The only command is `stop`, in capitals or not and with
blanks around it. A line that is no UTF-8 ends the reading.
-/

namespace LoadTest

variable {κ : Type}

/-- The lines of some bytes. Each ends with a line feed, which the last one may lack, and a carriage
return before that does not belong to the line either. -/
def byteLines (bytes : List UInt8) : List (List UInt8) :=
  let cut (line : List UInt8) : List UInt8 :=
    match line.reverse with
    | 13 :: rest => rest.reverse
    | _ => line
  let rec go : List UInt8 → List UInt8 → List (List UInt8)
    | [], [] => []
    | line, [] => [line.reverse]
    | line, b :: bs => if b = 10 then cut line.reverse :: go [] bs else go (b :: line) bs
  go [] bytes

/-- The command on a line, in small letters. -/
def isStop (command : List Char) : Bool := command.map Char.toLower == "stop".toList

/-- Carry out the command on one line. -/
def Control.command (c : Control κ) (line : List Char) (k : κ) : List Message × κ :=
  let command := Text.trim line
  if command.isEmpty then ([], k)
  else if isStop command then
    let requested : Message := ⟨.info, "Stop requested from standard input"⟩
    match c.stop k with
    | (.ok (), k) => ([requested], k)
    | (.error e, k) =>
      ([requested, ⟨.error, s!"Unable to stop execution: {e.message}"⟩], k)
  else
    ([⟨.warn, s!"Unknown command \"{String.ofList command}\"; expected \"stop\""⟩], k)

/-- Carry out the commands on some lines, up to one that can not be decoded. -/
def Control.commands (c : Control κ) :
    List (List UInt8) → κ → Except ServiceError Unit × List Message × κ
  | [], k => (.ok (), [⟨.debug, "Standard input closed"⟩], k)
  | line :: lines, k =>
    match Text.decodeUtf8 line with
    | .error fault => (.error (.input fault), [], k)
    | .ok line =>
      let (messages, k) := c.command line k
      let (result, more, k) := c.commands lines k
      (result, messages ++ more, k)

/-- Carry out the commands in some bytes. -/
def Control.readCommands (c : Control κ) (bytes : List UInt8) (k : κ) :
    Except ServiceError Unit × List Message × κ :=
  c.commands (byteLines bytes) k

end LoadTest
