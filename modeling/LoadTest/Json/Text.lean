/-!
# JSON strings

Writing a text as a JSON string and reading one back. A fault of a JSON text is of one of three
kinds, and reading stops at the first.
-/

namespace LoadTest.Json

/-- What is wrong with a JSON text. -/
inductive Fault where
  /-- It is no JSON. -/
  | malformed
  /-- It is JSON, but not of the shape that is asked for. -/
  | unfit
  /-- It ends too early. -/
  | truncated
  deriving DecidableEq, Repr

/-- What reading comes to: a value and the rest of the text. -/
abbrev Reading (α : Type) := Except Fault (α × List Char)

/-! ### Writing -/

def hexDigit (n : Nat) : Char := Nat.digitChar n

/-- How a character is written inside a string. -/
def escape (c : Char) : List Char :=
  if c = '"' then ['\\', '"']
  else if c = '\\' then ['\\', '\\']
  else if c = '\x08' then ['\\', 'b']
  else if c = '\x0c' then ['\\', 'f']
  else if c = '\n' then ['\\', 'n']
  else if c = '\r' then ['\\', 'r']
  else if c = '\t' then ['\\', 't']
  else if c.toNat < 0x20 then
    ['\\', 'u', '0', '0', hexDigit (c.toNat / 16), hexDigit (c.toNat % 16)]
  else [c]

def quote (s : List Char) : List Char := '"' :: s.flatMap escape ++ ['"']

/-! ### Reading -/

def hexValue? (c : Char) : Option Nat :=
  if '0' ≤ c ∧ c ≤ '9' then some (c.toNat - 0x30)
  else if 'a' ≤ c ∧ c ≤ 'f' then some (c.toNat - 0x57)
  else if 'A' ≤ c ∧ c ≤ 'F' then some (c.toNat - 0x37)
  else none

/-- The number that four hexadecimal digits make up. -/
def hexValue4? (a b c d : Char) : Option Nat := do
  return 4096 * (← hexValue? a) + 256 * (← hexValue? b) + 16 * (← hexValue? c) + (← hexValue? d)

/-- The character that a one-letter escape stands for. -/
def unescape? (c : Char) : Option Char :=
  match c with
  | '"' => some '"'
  | '\\' => some '\\'
  | '/' => some '/'
  | 'b' => some '\x08'
  | 'f' => some '\x0c'
  | 'n' => some '\n'
  | 'r' => some '\r'
  | 't' => some '\t'
  | _ => none

/-- The fault of an escape whose four digits are not there. Four bytes have to follow at least, else
the text is too short. -/
def escapeFault (s : List Char) : Fault :=
  if (String.ofList s).utf8ByteSize < 4 then .truncated else .malformed

/-- The character of a pair of surrogates. -/
def ofSurrogates (high low : Nat) : Char :=
  Char.ofNat (0x10000 + (high - 0xD800) * 0x400 + (low - 0xDC00))

/-- Put a character in front of what a string goes on with. -/
def consRead (c : Char) : Reading (List Char) → Reading (List Char)
  | .ok (t, rest) => .ok (c :: t, rest)
  | .error e => .error e

/-- Read a string whose opening quote has been read. Escaped surrogates have to come in pairs. -/
def readString : List Char → Reading (List Char)
  | [] => .error .truncated
  | '"' :: s => .ok ([], s)
  | '\\' :: 'u' :: a :: b :: c :: d :: s =>
    match hexValue4? a b c d with
    | none => .error (escapeFault (a :: b :: c :: d :: s))
    | some n =>
      if n < 0xD800 ∨ 0xE000 ≤ n then consRead (Char.ofNat n) (readString s)
      else if 0xDC00 ≤ n then .error .malformed
      else
        match s with
        | [] => .error .truncated
        | ['\\'] => .error .truncated
        | '\\' :: 'u' :: e :: f :: g :: h :: s =>
          match hexValue4? e f g h with
          | none => .error (escapeFault (e :: f :: g :: h :: s))
          | some m =>
            if 0xDC00 ≤ m ∧ m < 0xE000 then consRead (ofSurrogates n m) (readString s)
            else .error .malformed
        | '\\' :: 'u' :: s => .error (escapeFault s)
        | _ => .error .malformed
  | '\\' :: 'u' :: s => .error (escapeFault s)
  | ['\\'] => .error .truncated
  | '\\' :: c :: s =>
    match unescape? c with
    | some c => consRead c (readString s)
    | none => .error .malformed
  | c :: s => if c.toNat < 0x20 then .error .malformed else consRead c (readString s)

/-- Skip a string whose opening quote has been read. Surrogates may stand alone here. -/
def skipString : List Char → Except Fault (List Char)
  | [] => .error .truncated
  | '"' :: s => .ok s
  | '\\' :: 'u' :: a :: b :: c :: d :: s =>
    match hexValue4? a b c d with
    | none => .error (escapeFault (a :: b :: c :: d :: s))
    | some _ => skipString s
  | '\\' :: 'u' :: s => .error (escapeFault s)
  | ['\\'] => .error .truncated
  | '\\' :: c :: s => if (unescape? c).isSome then skipString s else .error .malformed
  | c :: s => if c.toNat < 0x20 then .error .malformed else skipString s

end LoadTest.Json
