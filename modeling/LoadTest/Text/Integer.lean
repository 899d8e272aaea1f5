/-!
# Reading whole numbers

Decimal readers of a fixed width. A sign is allowed in front, digits are those of ASCII, and a
number that does not fit the width is no number at all.
-/

namespace LoadTest.Text

def digitValue? (c : Char) : Option Nat :=
  if '0' ≤ c ∧ c ≤ '9' then some (c.toNat - '0'.toNat) else none

/-- The number that the digits write, appended to the digits already read. -/
def digitsFrom (n : Nat) : List Char → Option Nat
  | [] => some n
  | c :: s =>
    match digitValue? c with
    | some d => digitsFrom (10 * n + d) s
    | none => none

/-- A non-empty run of digits. -/
def readDigits : List Char → Option Nat
  | [] => none
  | s => digitsFrom 0 s

/-- The number itself, unless it is `bound` or more. -/
def below (bound n : Nat) : Option Nat := if n < bound then some n else none

@[simp] theorem below_eq_some {bound n m : Nat} :
    below bound n = some m ↔ n = m ∧ m < bound := by
  unfold below
  split <;> simp <;> omega

/-- How many numbers there are of `bits` bits. -/
def capacity (bits : Nat) : Nat := Nat.pow 2 bits

/-- An unsigned number of `bits` bits. A plus sign may stand in front. -/
def readNat (bits : Nat) : List Char → Option Nat
  | '+' :: s => readDigits s >>= below (capacity bits)
  | s => readDigits s >>= below (capacity bits)

/-- A signed number of `bits` bits. -/
def readInt (bits : Nat) : List Char → Option Int
  | '-' :: s => (readDigits s >>= below (capacity (bits - 1) + 1)).map fun n => -(n : Int)
  | '+' :: s => (readDigits s >>= below (capacity (bits - 1))).map Int.ofNat
  | s => (readDigits s >>= below (capacity (bits - 1))).map Int.ofNat

/-- What an unsigned reader accepts fits its width. -/
theorem lt_of_readNat {bits n : Nat} {s : List Char} (h : readNat bits s = some n) :
    n < capacity bits := by
  unfold readNat at h
  split at h <;>
    (simp only [Option.bind_eq_bind, Option.bind_eq_some_iff, below_eq_some] at h
     obtain ⟨_, _, rfl, hlt⟩ := h
     exact hlt)

end LoadTest.Text
