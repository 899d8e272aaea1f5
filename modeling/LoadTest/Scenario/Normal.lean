import LoadTest.Scenario.Error
import LoadTest.Text.Blank
import LoadTest.Text.LowerCase

/-!
# Normal form of scenario text

Before a scenario is read its blanks are removed, then its comments, and the rest is put in lower
case. A comment stands between two markers `##`, and markers are found from left to right.
-/

namespace LoadTest

open Text

/-- The text outside comments. `inside` says whether the text starts within one; a comment that is
never closed leaves nothing. -/
def dropComments : (inside : Bool) → List Char → Option (List Char)
  | inside, '#' :: '#' :: s => dropComments (!inside) s
  | false, c :: s => (dropComments false s).map (c :: ·)
  | true, _ :: s => dropComments true s
  | false, [] => some []
  | true, [] => none

def normalize (scenario : String) : Except CompileError (List Char) :=
  match dropComments false (scenario.toList.filter fun c => !isBlank c) with
  | some s => .ok (lower s)
  | none => .error .unterminatedComment

end LoadTest
