/-!
# Decoding UTF-8

Decoding bytes into characters, and the exact place and kind of the first fault.
-/

namespace LoadTest.Text

/-- Why bytes are no UTF-8: the index of the first byte that belongs to no character, and the number
of bytes that are wrong there, or none if the bytes end within a character. -/
structure Utf8Fault where
  index : Nat
  wrong : Option Nat
  deriving DecidableEq, Repr

def Utf8Fault.message (f : Utf8Fault) : String :=
  match f.wrong with
  | some n => s!"invalid utf-8 sequence of {n} bytes from index {f.index}"
  | none => s!"incomplete utf-8 byte sequence from index {f.index}"

/-- What the first byte of a character of several bytes says about the rest. -/
structure Lead where
  /-- The bits of the character that stand in the first byte. -/
  bits : Nat
  /-- The least and the greatest second byte. -/
  low : Nat
  high : Nat
  /-- The number of bytes after the second one. -/
  more : Nat
  deriving DecidableEq, Repr

/-- The meaning of a first byte, if it can be one of a character of several bytes. -/
def lead? (b : Nat) : Option Lead :=
  if 0xC2 ≤ b ∧ b ≤ 0xDF then some ⟨b - 0xC0, 0x80, 0xBF, 0⟩
  else if b = 0xE0 then some ⟨0, 0xA0, 0xBF, 1⟩
  else if b = 0xED then some ⟨0xD, 0x80, 0x9F, 1⟩
  else if 0xE1 ≤ b ∧ b ≤ 0xEF then some ⟨b - 0xE0, 0x80, 0xBF, 1⟩
  else if b = 0xF0 then some ⟨0, 0x90, 0xBF, 2⟩
  else if 0xF1 ≤ b ∧ b ≤ 0xF3 then some ⟨b - 0xF0, 0x80, 0xBF, 2⟩
  else if b = 0xF4 then some ⟨4, 0x80, 0x8F, 2⟩
  else none

def isTail (b : UInt8) : Bool := 0x80 ≤ b.toNat && b.toNat ≤ 0xBF

/-- The character made of the bits so far and those of a later byte. -/
def withTail (bits : Nat) (b : UInt8) : Nat := bits * 0x40 + (b.toNat - 0x80)

/-- Put a character in front of decoded ones. -/
def consDecoded (n : Nat) : Except Utf8Fault (List Char) → Except Utf8Fault (List Char)
  | .ok cs => .ok (Char.ofNat n :: cs)
  | .error e => .error e

/-- Decode bytes, the first of which has an index. -/
def decodeUtf8From (i : Nat) : List UInt8 → Except Utf8Fault (List Char)
  | [] => .ok []
  | a :: s =>
    if a.toNat < 0x80 then consDecoded a.toNat (decodeUtf8From (i + 1) s)
    else
      match lead? a.toNat with
      | none => .error ⟨i, some 1⟩
      | some l =>
        match s with
        | [] => .error ⟨i, none⟩
        | b :: s =>
          if b.toNat < l.low ∨ l.high < b.toNat then .error ⟨i, some 1⟩
          else if l.more = 0 then consDecoded (withTail l.bits b) (decodeUtf8From (i + 2) s)
          else
            match s with
            | [] => .error ⟨i, none⟩
            | c :: s =>
              if !isTail c then .error ⟨i, some 2⟩
              else if l.more = 1 then
                consDecoded (withTail (withTail l.bits b) c) (decodeUtf8From (i + 3) s)
              else
                match s with
                | [] => .error ⟨i, none⟩
                | d :: s =>
                  if !isTail d then .error ⟨i, some 3⟩
                  else
                    consDecoded (withTail (withTail (withTail l.bits b) c) d)
                      (decodeUtf8From (i + 4) s)

def decodeUtf8 (s : List UInt8) : Except Utf8Fault (List Char) := decodeUtf8From 0 s

end LoadTest.Text
