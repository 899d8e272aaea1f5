import LoadTest.Json.Text
import LoadTest.Rounding
import LoadTest.Text.Integer

/-!
# JSON values

Reading the values that a record of texts and numbers is made of, and skipping all others.
-/

namespace LoadTest.Json

open Text

def isSpace (c : Char) : Bool := c = ' ' || c = '\n' || c = '\t' || c = '\r'

def skipSpace (s : List Char) : List Char := s.dropWhile isSpace

/-- Read the rest of a word. -/
def expect : (word s : List Char) → Except Fault (List Char)
  | [], s => .ok s
  | _, [] => .error .truncated
  | w :: ws, c :: s => if w = c then expect ws s else .error .malformed

/-! ### Numbers -/

/-- Take digits in behind the number `n`, as long as it stays within 64 bits. The answer is the
number, and the digits that are left out. -/
def takeIn (n : Nat) : List Char → Nat × List Char
  | [] => (n, [])
  | c :: s =>
    match digitValue? c with
    | some d => if 10 * n + d < capacity 64 then takeIn (10 * n + d) s else (n, c :: s)
    | none => (n, c :: s)

/-- What is taken in stays within 64 bits. -/
theorem takeIn_lt {n : Nat} (s : List Char) (h : n < capacity 64) :
    (takeIn n s).1 < capacity 64 := by
  fun_induction takeIn n s with
  | case1 => exact h
  | case2 _ _ _ _ _ hlt ih => exact ih hlt
  | case3 => exact h
  | case4 => exact h

/-- The significand of a number and its power of ten, from the digits in front of the point, those
behind it, and the exponent. What is left out in front of the point counts as zeros, and what is
left out behind it as nothing. -/
def scale (whole fraction : List Char) (exponent : Int) : Nat × Int :=
  let (n, zeros) := takeIn 0 whole
  let (n, dropped) := takeIn n fraction
  (n, exponent + zeros.length - (fraction.length - dropped.length : Nat))

/-- Is `n * 10 ^ e` out of the range of doubles? Both factors are rounded to doubles first, and so a
power past all of them is too great for any factor. -/
def exceedsDouble (n : Nat) (e : Int) : Bool :=
  if n = 0 ∨ e < 0 then false
  else if 308 < e then true
  else doubleBound ≤ roundToDouble n * roundToDouble (Nat.pow 10 e.toNat)

/-- The digits in front of a text, and the rest. -/
def spanDigits (s : List Char) : List Char × List Char :=
  (s.takeWhile fun c => (digitValue? c).isSome, s.dropWhile fun c => (digitValue? c).isSome)

def digitsValue (s : List Char) : Nat := (digitsFrom 0 s).getD 0

/-- Read the digits of a fraction or an exponent. There has to be one at least. -/
def readSomeDigits (s : List Char) : Reading (List Char) :=
  match spanDigits s with
  | ([], []) => .error .truncated
  | ([], _) => .error .malformed
  | (ds, rest) => .ok (ds, rest)

/-- Read the exponent of a number, if there is one. -/
def readExponent (s : List Char) : Reading (Option Int) :=
  let scaled (sign : Int) (s : List Char) : Reading (Option Int) :=
    match readSomeDigits s with
    | .ok (ds, rest) => .ok (some (sign * digitsValue ds), rest)
    | .error e => .error e
  let signed : List Char → Reading (Option Int)
    | '-' :: s => scaled (-1) s
    | '+' :: s => scaled 1 s
    | s => scaled 1 s
  match s with
  | 'e' :: s => signed s
  | 'E' :: s => signed s
  | s => .ok (none, s)

/-- Read the fraction of a number, if there is one. -/
def readFraction : List Char → Reading (Option (List Char))
  | '.' :: s =>
    match readSomeDigits s with
    | .ok (ds, rest) => .ok (some ds, rest)
    | .error e => .error e
  | s => .ok (none, s)

/-- Read the digits of a whole number. There is no zero in front of others. -/
def readWhole : List Char → Reading (List Char)
  | [] => .error .truncated
  | '0' :: s =>
    match spanDigits s with
    | ([], _) => .ok (['0'], s)
    | _ => .error .malformed
  | s =>
    match spanDigits s with
    | ([], _) => .error .malformed
    | (ds, rest) => .ok (ds, rest)

/-- Read a number without a sign. The value is none unless it is a whole number of 64 bits that is
written as one. A number past all finite doubles is malformed. -/
def readNumber (s : List Char) : Except Fault (Option Nat × List Char) := do
  let (whole, s) ← readWhole s
  let (fraction, s) ← readFraction s
  let (exponent, s) ← readExponent s
  let n := digitsValue whole
  if fraction.isNone ∧ exponent.isNone ∧ n < capacity 64 then
    return (some n, s)
  let (n, e) := scale whole (fraction.getD []) (exponent.getD 0)
  if exceedsDouble n e then throw .malformed
  return (none, s)

/-- Skip a number without a sign. Its size does not matter, and it may not be cut off. -/
def skipNumber (s : List Char) : Except Fault (List Char) :=
  let result : Except Fault (List Char) := do
    let (_, s) ← readWhole s
    let (_, s) ← readFraction s
    let (_, s) ← readExponent s
    return s
  result.mapError fun _ => .malformed

/-! ### Values of a type -/

/-- The fault of a value that is not of the type that is asked for. The value is read as far as
needed to see that. -/
def mismatch (s : List Char) : Fault :=
  let ofResult {α : Type} : Except Fault α → Fault
    | .ok _ => .unfit
    | .error e => e
  match s with
  | 'n' :: s => ofResult (expect "ull".toList s)
  | 't' :: s => ofResult (expect "rue".toList s)
  | 'f' :: s => ofResult (expect "alse".toList s)
  | '"' :: s => ofResult (readString s)
  | '-' :: s => ofResult (readNumber s)
  | '[' :: _ => .unfit
  | '\x7b' :: _ => .unfit
  | s@(c :: _) => if (digitValue? c).isSome then ofResult (readNumber s) else .malformed
  | [] => .truncated

def readText (s : List Char) : Reading String :=
  match skipSpace s with
  | '"' :: s =>
    match readString s with
    | .ok (t, rest) => .ok (String.ofList t, rest)
    | .error e => .error e
  | s => .error (mismatch s)

def readOptionalText (s : List Char) : Reading (Option String) :=
  match skipSpace s with
  | 'n' :: s =>
    match expect "ull".toList s with
    | .ok rest => .ok (none, rest)
    | .error e => .error e
  | s =>
    match readText s with
    | .ok (t, rest) => .ok (some t, rest)
    | .error e => .error e

/-- Read a whole number of 64 bits. -/
def readNat (s : List Char) : Reading Nat :=
  let s := skipSpace s
  match s with
  | c :: _ =>
    if (digitValue? c).isSome then
      match readNumber s with
      | .ok (some n, rest) => .ok (n, rest)
      | .ok (none, _) => .error .unfit
      | .error e => .error e
    else .error (mismatch s)
  | [] => .error .truncated

/-! ### Skipping -/

mutual

/-- Skip a value of any type. Two calls are made for every container that is open, and so twice the
length of the text is fuel enough. -/
def skipValue : (fuel : Nat) → List Char → Except Fault (List Char)
  | 0, _ => .error .truncated
  | fuel + 1, s =>
    match skipSpace s with
    | [] => .error .truncated
    | 'n' :: s => expect "ull".toList s
    | 't' :: s => expect "rue".toList s
    | 'f' :: s => expect "alse".toList s
    | '"' :: s => skipString s
    | '-' :: s => skipNumber s
    | '[' :: s => skipItems fuel true s
    | '\x7b' :: s => skipMembers fuel true s
    | s@(c :: _) => if (digitValue? c).isSome then skipNumber s else .error .malformed

/-- Skip the items of a list and its closing bracket. -/
def skipItems : (fuel : Nat) → (first : Bool) → List Char → Except Fault (List Char)
  | 0, _, _ => .error .truncated
  | fuel + 1, first, s =>
    match skipSpace s with
    | [] => .error .truncated
    | ']' :: s => .ok s
    | s@(c :: s') =>
      if first then
        match skipValue fuel s with
        | .ok rest => skipItems fuel false rest
        | .error e => .error e
      else if c = ',' then
        match skipSpace s' with
        | ']' :: _ => .error .malformed
        | s =>
          match skipValue fuel s with
          | .ok rest => skipItems fuel false rest
          | .error e => .error e
      else .error .malformed

/-- Skip the members of an object and its closing brace. -/
def skipMembers : (fuel : Nat) → (first : Bool) → List Char → Except Fault (List Char)
  | 0, _, _ => .error .truncated
  | fuel + 1, first, s =>
    match skipSpace s with
    | [] => .error .truncated
    | '\x7d' :: s => .ok s
    | s@(c :: s') =>
      if !first && c ≠ ',' then .error .malformed
      else
        match skipSpace (if first then s else s') with
        | [] => .error .truncated
        | '"' :: s =>
          match skipString s with
          | .error e => .error e
          | .ok s =>
            match skipSpace s with
            | [] => .error .truncated
            | ':' :: s =>
              match skipValue fuel s with
              | .ok rest => skipMembers fuel false rest
              | .error e => .error e
            | _ => .error .malformed
        | _ => .error .malformed

end

def skip (s : List Char) : Except Fault (List Char) := skipValue (2 * s.length + 2) s

end LoadTest.Json
