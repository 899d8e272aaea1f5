import LoadTest.Behavior.Basic
import LoadTest.Rounding

/-!
# Selecting a task

Tasks are selected at random in proportion to their weights. A draw lies in `[0, T)`, where `T` is
the total weight, and is counted in parts of `1 / unit`, so that all arithmetic is exact.
-/

namespace LoadTest

variable {σ : Type}

/-- The first task, of `t` and those that follow it, at which the weights so far reach the draw, or
else the last one. -/
def pick (unit : Nat) : (t : Task σ) → (others : List (Task σ)) → (draw : Nat) → Task σ
  | t, [], _ => t
  | t, u :: us, draw =>
    if draw ≤ unit * t.weight then t else pick unit u us (draw - unit * t.weight)

/-- The number of parts into which a unit of weight is divided for a draw. -/
def drawUnit : Nat := Nat.pow 2 52

/-- The draw that a random word stands for. Its upper 52 bits are a fraction of the total weight,
and the product is rounded to 53 binary digits. -/
def drawOf (totalWeight : Nat) (word : UInt64) : Nat :=
  roundToDouble ((word.toNat / 4096) * roundToDouble totalWeight)

/-- Does a selection from this set take a random word? A lone task is selected without one. -/
def Template.draws (t : Template σ) : Bool := !t.others.isEmpty

/-- The task selected by a random word. -/
def Template.select (t : Template σ) (word : UInt64) : Task σ :=
  pick drawUnit t.first t.others (drawOf t.taskSet.totalWeight word)

end LoadTest
