import LoadTest.Lifecycle

/-!
# Durations

Spans of time to the nanosecond, and two ways to write them: as a decimal in one unit, and as a list
of units for a human reader.
-/

namespace LoadTest

/-- A span of time in nanoseconds. -/
structure Duration where
  nanos : Nat
  deriving DecidableEq, Repr, Inhabited

namespace Duration

def ofMillis (ms : Millis) : Duration := ⟨ms * 1000000⟩

def millis (d : Duration) : Millis := d.nanos / 1000000

@[simp] theorem millis_ofMillis (ms : Millis) : (ofMillis ms).millis = ms := by
  simp [ofMillis, millis]

/-- The decimal digits of `n / 10 ^ places`, without trailing zeros, given `n < 10 ^ places`. -/
def fraction (places n : Nat) : String :=
  let digits := (Nat.toDigits 10 (Nat.pow 10 places + n)).drop 1
  let kept := (digits.reverse.dropWhile (· = '0')).reverse
  if kept.isEmpty then "" else "." ++ String.ofList kept

/-- A span of time as an exact decimal, in the largest of seconds, milliseconds, microseconds and
nanoseconds in which it is 1 or more. -/
def exactText (d : Duration) : String :=
  let decimal (places : Nat) :=
    let unit := Nat.pow 10 places
    toString (d.nanos / unit) ++ fraction places (d.nanos % unit)
  if d.nanos ≥ 1000000000 then decimal 9 ++ "s"
  else if d.nanos ≥ 1000000 then decimal 6 ++ "ms"
  else if d.nanos ≥ 1000 then decimal 3 ++ "µs"
  else toString d.nanos ++ "ns"

/-- One part of a duration text; a part of nothing is left out. -/
def part (count : Nat) (unit : String) : List String :=
  if count = 0 then [] else [toString count ++ unit]

/-- A part whose unit is a word, with a plural. -/
def wordPart (count : Nat) (unit : String) : List String :=
  part count (if count > 1 then unit ++ "s" else unit)

/-- A span of time for a human reader: years of 365.25 days, months of 30.44 days, days, and so on
down to nanoseconds. -/
def humanText (d : Duration) : String :=
  let seconds := d.nanos / 1000000000
  let nanos := d.nanos % 1000000000
  let inYear := seconds % 31557600
  let inMonth := inYear % 2630016
  let inDay := inMonth % 86400
  let parts :=
    wordPart (seconds / 31557600) "year" ++ wordPart (inYear / 2630016) "month"
      ++ wordPart (inMonth / 86400) "day" ++ part (inDay / 3600) "h" ++ part (inDay % 3600 / 60) "m"
      ++ part (inDay % 60) "s" ++ part (nanos / 1000000) "ms" ++ part (nanos / 1000 % 1000) "us"
      ++ part (nanos % 1000) "ns"
  if parts.isEmpty then "0s" else " ".intercalate parts

end Duration

end LoadTest
