/-!
# Rounding to binary digits

The precision of a double-precision number, on natural numbers: 53 significant binary digits.
-/

namespace LoadTest

/-- The nearest number that has at most `bits` significant binary digits, where a tie goes to the
one with the even last digit. -/
def roundToBits (bits n : Nat) : Nat :=
  let dropped := n.log2 + 1 - bits
  if dropped = 0 then n
  else
    let unit := Nat.pow 2 dropped
    let quotient := n / unit
    let twice := 2 * (n % unit)
    let up := unit < twice ∨ (twice = unit ∧ quotient % 2 = 1)
    (if up then quotient + 1 else quotient) * unit

/-- The nearest number of the precision of a double. -/
def roundToDouble (n : Nat) : Nat := roundToBits 53 n

/-- Half a step past the greatest finite double. A number that is as great is rounded out of the
range. -/
def doubleBound : Nat := Nat.pow 2 1024 - Nat.pow 2 970

/-- A number that fits the digits is not changed. -/
theorem roundToBits_eq_self {bits n : Nat} (h : n.log2 < bits) : roundToBits bits n = n := by
  unfold roundToBits
  rw [if_pos (by omega)]

end LoadTest
