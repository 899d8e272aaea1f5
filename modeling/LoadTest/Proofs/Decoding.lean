import LoadTest.Text.Utf8
import Mathlib.Tactic.Common

/-!
# What is valid UTF-8

Bytes are decoded exactly if they are the encodings of some characters one after the other, and then
into these characters. `Encodes` says which bytes the decoder takes for one character, and they are
those of its encoding.
-/

namespace LoadTest.Text

/-- The bytes that are read as one character of a number: a single one, or a first byte that says in
which range the second one is to be and how many come after it. -/
inductive Encodes : List UInt8 → Nat → Prop
  | one {a : UInt8} (ha : a.toNat < 0x80) : Encodes [a] a.toNat
  | two {a b : UInt8} {l : Lead} (hlead : lead? a.toNat = some l) (hmore : l.more = 0)
      (hb : l.low ≤ b.toNat ∧ b.toNat ≤ l.high) : Encodes [a, b] (withTail l.bits b)
  | three {a b c : UInt8} {l : Lead} (hlead : lead? a.toNat = some l) (hmore : l.more = 1)
      (hb : l.low ≤ b.toNat ∧ b.toNat ≤ l.high) (hc : isTail c = true) :
      Encodes [a, b, c] (withTail (withTail l.bits b) c)
  | four {a b c d : UInt8} {l : Lead} (hlead : lead? a.toNat = some l) (hmore : l.more = 2)
      (hb : l.low ≤ b.toNat ∧ b.toNat ≤ l.high) (hc : isTail c = true) (hd : isTail d = true) :
      Encodes [a, b, c, d] (withTail (withTail (withTail l.bits b) c) d)

/-! ### First bytes -/

section

variable {n : Nat} {l : Lead}

lemma lead?_of_two (hlo : 0xC2 ≤ n) (hhi : n ≤ 0xDF) :
    lead? n = some ⟨n - 0xC0, 0x80, 0xBF, 0⟩ := by
  rw [lead?, if_pos ⟨hlo, hhi⟩]

lemma lead?_of_three (hlo : 0xE0 ≤ n) (hhi : n ≤ 0xEF) :
    lead? n =
      some ⟨n - 0xE0, if n = 0xE0 then 0xA0 else 0x80, if n = 0xED then 0x9F else 0xBF, 1⟩ := by
  rw [lead?, if_neg (by omega)]
  split_ifs <;> first | omega | simp_all

lemma lead?_of_four (hlo : 0xF0 ≤ n) (hhi : n ≤ 0xF4) :
    lead? n =
      some ⟨n - 0xF0, if n = 0xF0 then 0x90 else 0x80, if n = 0xF4 then 0x8F else 0xBF, 2⟩ := by
  rw [lead?, if_neg (by omega), if_neg (by omega), if_neg (by omega), if_neg (by omega)]
  split_ifs <;> first | omega | simp_all

/-- The bytes that can come first, if more are to follow. -/
lemma range_of_lead? (h : lead? n = some l) :
    0xC2 ≤ n ∧ n ≤ 0xDF ∨ 0xE0 ≤ n ∧ n ≤ 0xEF ∨ 0xF0 ≤ n ∧ n ≤ 0xF4 := by
  rw [lead?] at h
  split_ifs at h <;> omega

/-- What a first byte says, by the number of bytes that follow. -/
lemma eq_of_lead? (h : lead? n = some l) :
    (0xC2 ≤ n ∧ n ≤ 0xDF) ∧ l = ⟨n - 0xC0, 0x80, 0xBF, 0⟩ ∨
      (0xE0 ≤ n ∧ n ≤ 0xEF) ∧
        l = ⟨n - 0xE0, if n = 0xE0 then 0xA0 else 0x80, if n = 0xED then 0x9F else 0xBF, 1⟩ ∨
      (0xF0 ≤ n ∧ n ≤ 0xF4) ∧
        l = ⟨n - 0xF0, if n = 0xF0 then 0x90 else 0x80, if n = 0xF4 then 0x8F else 0xBF, 2⟩ := by
  obtain hrange | hrange | hrange := range_of_lead? h
  · rw [lead?_of_two hrange.1 hrange.2] at h
    exact .inl ⟨hrange, (Option.some.inj h).symm⟩
  · rw [lead?_of_three hrange.1 hrange.2] at h
    exact .inr (.inl ⟨hrange, (Option.some.inj h).symm⟩)
  · rw [lead?_of_four hrange.1 hrange.2] at h
    exact .inr (.inr ⟨hrange, (Option.some.inj h).symm⟩)

end

/-! ### Single characters -/

lemma utf8EncodeChar_ofNat {n : Nat} (h : n.isValidChar) :
    String.utf8EncodeChar (Char.ofNat n) =
      if n ≤ 0x7F then [UInt8.ofNat n]
      else if n ≤ 0x7FF then [UInt8.ofNat (n / 64 % 32 + 192), UInt8.ofNat (n % 64 + 128)]
      else if n ≤ 0xFFFF then
        [UInt8.ofNat (n / 4096 % 16 + 224), UInt8.ofNat (n / 64 % 64 + 128),
          UInt8.ofNat (n % 64 + 128)]
      else
        [UInt8.ofNat (n / 262144 % 8 + 240), UInt8.ofNat (n / 4096 % 64 + 128),
          UInt8.ofNat (n / 64 % 64 + 128), UInt8.ofNat (n % 64 + 128)] := by
  have hn : (Char.ofNat n).val.toNat = n := by
    rw [Char.ofNat, dif_pos h]
    rfl
  simp only [String.utf8EncodeChar, hn]

lemma eq_ofNat_of_toNat {n : Nat} {a : UInt8} (h : a.toNat = n) : a = UInt8.ofNat n := by
  rw [← h, UInt8.ofNat_toNat]

lemma isTail_iff {b : UInt8} : isTail b = true ↔ 0x80 ≤ b.toNat ∧ b.toNat ≤ 0xBF := by
  simp [isTail]

/-- What is read as a character is its encoding. -/
lemma Encodes.eq_utf8EncodeChar {bytes : List UInt8} {n : Nat} (h : Encodes bytes n) :
    n.isValidChar ∧ bytes = String.utf8EncodeChar (Char.ofNat n) := by
  cases h with
  | @one a ha =>
    have hvalid : a.toNat.isValidChar := .inl (by omega)
    refine ⟨hvalid, ?_⟩
    rw [utf8EncodeChar_ofNat hvalid, if_pos (by omega), UInt8.ofNat_toNat]
  | @two a b l hlead hmore hb =>
    obtain ⟨hrange, rfl⟩ | ⟨-, rfl⟩ | ⟨-, rfl⟩ := eq_of_lead? hlead
    · clear hlead hmore
      simp only at hb
      unfold withTail
      generalize hn : (a.toNat - 0xC0) * 0x40 + (b.toNat - 0x80) = n
      have hvalid : n.isValidChar := .inl (by omega)
      refine ⟨hvalid, ?_⟩
      rw [utf8EncodeChar_ofNat hvalid, if_neg (by omega), if_pos (by omega)]
      simp only [List.cons.injEq, and_true]
      exact ⟨eq_ofNat_of_toNat (by omega), eq_ofNat_of_toNat (by omega)⟩
    · cases hmore
    · cases hmore
  | @three a b c l hlead hmore hb hc =>
    rw [isTail_iff] at hc
    obtain ⟨-, rfl⟩ | ⟨hrange, rfl⟩ | ⟨-, rfl⟩ := eq_of_lead? hlead
    · cases hmore
    · clear hlead hmore
      simp only at hb
      unfold withTail
      generalize hn : ((a.toNat - 0xE0) * 0x40 + (b.toNat - 0x80)) * 0x40 + (c.toNat - 0x80) = n
      have hvalid : n.isValidChar := by
        rw [Nat.isValidChar]
        split_ifs at hb <;> omega
      refine ⟨hvalid, ?_⟩
      have hmin : 0x7FF < n := by split_ifs at hb <;> omega
      have hbhi : b.toNat ≤ 0xBF ∧ 0x80 ≤ b.toNat := by split_ifs at hb <;> omega
      rw [utf8EncodeChar_ofNat hvalid, if_neg (by omega), if_neg (by omega), if_pos (by omega)]
      simp only [List.cons.injEq, and_true]
      exact ⟨eq_ofNat_of_toNat (by omega), eq_ofNat_of_toNat (by omega),
        eq_ofNat_of_toNat (by omega)⟩
    · cases hmore
  | @four a b c d l hlead hmore hb hc hd =>
    rw [isTail_iff] at hc hd
    obtain ⟨-, rfl⟩ | ⟨-, rfl⟩ | ⟨hrange, rfl⟩ := eq_of_lead? hlead
    · cases hmore
    · cases hmore
    · clear hlead hmore
      simp only at hb
      unfold withTail
      generalize hn : (((a.toNat - 0xF0) * 0x40 + (b.toNat - 0x80)) * 0x40 + (c.toNat - 0x80)) *
        0x40 + (d.toNat - 0x80) = n
      have hmin : 0xFFFF < n := by split_ifs at hb <;> omega
      have hmax : n < 0x110000 := by split_ifs at hb <;> omega
      have hvalid : n.isValidChar := .inr ⟨by omega, by omega⟩
      refine ⟨hvalid, ?_⟩
      have hbhi : b.toNat ≤ 0xBF ∧ 0x80 ≤ b.toNat := by split_ifs at hb <;> omega
      rw [utf8EncodeChar_ofNat hvalid, if_neg (by omega), if_neg (by omega), if_neg (by omega)]
      simp only [List.cons.injEq, and_true]
      exact ⟨eq_ofNat_of_toNat (by omega), eq_ofNat_of_toNat (by omega),
        eq_ofNat_of_toNat (by omega), eq_ofNat_of_toNat (by omega)⟩

/-- The encoding of a character is read as that character. -/
lemma encodes_utf8EncodeChar (c : Char) : Encodes (String.utf8EncodeChar c) c.toNat := by
  have hvalid : c.toNat.isValidChar := c.valid
  rw [← Char.ofNat_toNat c, utf8EncodeChar_ofNat hvalid, Char.ofNat_toNat]
  generalize c.toNat = n at hvalid
  have hbound : n < 0x110000 := by omega
  have hbyte : ∀ m, m < 0x100 → (UInt8.ofNat m).toNat = m := fun m hm => by
    rw [UInt8.toNat_ofNat', Nat.mod_eq_of_lt hm]
  split_ifs with h1 h2 h3
  · have ha := hbyte n (by omega)
    generalize UInt8.ofNat n = a at ha ⊢
    exact ha ▸ .one (by omega)
  · have ha := hbyte (n / 64 % 32 + 192) (by omega)
    have hb := hbyte (n % 64 + 128) (by omega)
    generalize UInt8.ofNat (n / 64 % 32 + 192) = a, UInt8.ofNat (n % 64 + 128) = b at ha hb ⊢
    have hn : withTail (a.toNat - 0xC0) b = n := by
      unfold withTail
      omega
    have htwo := Encodes.two (b := b) (lead?_of_two (n := a.toNat) (by omega) (by omega)) rfl
      ⟨by simp only; omega, by simp only; omega⟩
    simpa only [hn] using htwo
  · have ha := hbyte (n / 4096 % 16 + 224) (by omega)
    have hb := hbyte (n / 64 % 64 + 128) (by omega)
    have hc := hbyte (n % 64 + 128) (by omega)
    generalize UInt8.ofNat (n / 4096 % 16 + 224) = a, UInt8.ofNat (n / 64 % 64 + 128) = b,
      UInt8.ofNat (n % 64 + 128) = c at ha hb hc ⊢
    have hn : withTail (withTail (a.toNat - 0xE0) b) c = n := by
      unfold withTail
      omega
    have hthree := Encodes.three (b := b) (c := c)
      (lead?_of_three (n := a.toNat) (by omega) (by omega)) rfl
      ⟨by simp only; split_ifs <;> omega, by simp only; split_ifs <;> omega⟩
      (isTail_iff.2 (by omega))
    simpa only [hn] using hthree
  · have ha := hbyte (n / 262144 % 8 + 240) (by omega)
    have hb := hbyte (n / 4096 % 64 + 128) (by omega)
    have hc := hbyte (n / 64 % 64 + 128) (by omega)
    have hd := hbyte (n % 64 + 128) (by omega)
    generalize UInt8.ofNat (n / 262144 % 8 + 240) = a, UInt8.ofNat (n / 4096 % 64 + 128) = b,
      UInt8.ofNat (n / 64 % 64 + 128) = c, UInt8.ofNat (n % 64 + 128) = d at ha hb hc hd ⊢
    have hn : withTail (withTail (withTail (a.toNat - 0xF0) b) c) d = n := by
      unfold withTail
      omega
    have hfour := Encodes.four (b := b) (c := c) (d := d)
      (lead?_of_four (n := a.toNat) (by omega) (by omega)) rfl
      ⟨by simp only; split_ifs <;> omega, by simp only; split_ifs <;> omega⟩
      (isTail_iff.2 (by omega)) (isTail_iff.2 (by omega))
    simpa only [hn] using hfour

/-! ### Texts -/

lemma consDecoded_eq_ok {n : Nat} {result : Except Utf8Fault (List Char)} {cs : List Char} :
    consDecoded n result = .ok cs ↔ ∃ ds, result = .ok ds ∧ cs = Char.ofNat n :: ds := by
  cases result with
  | error e => simp [consDecoded]
  | ok ds => simp [consDecoded, eq_comm]

/-- A character is decoded and put in front of the others. -/
lemma Encodes.decodeUtf8From_append {bytes : List UInt8} {n : Nat} (h : Encodes bytes n) (i : Nat)
    (s : List UInt8) :
    decodeUtf8From i (bytes ++ s) = consDecoded n (decodeUtf8From (i + bytes.length) s) := by
  have hlead : ∀ {a : UInt8} {l : Lead}, lead? a.toNat = some l → ¬ a.toNat < 0x80 := by
    intro a l hlead
    have := range_of_lead? hlead
    omega
  cases h with
  | one ha => simp [decodeUtf8From, ha]
  | two h hmore hb =>
    simp [decodeUtf8From, hlead h, h, hmore, Nat.not_lt.2 hb.1, Nat.not_lt.2 hb.2]
  | three h hmore hb hc =>
    simp [decodeUtf8From, hlead h, h, hmore, Nat.not_lt.2 hb.1, Nat.not_lt.2 hb.2, hc]
  | four h hmore hb hc hd =>
    simp [decodeUtf8From, hlead h, h, hmore, Nat.not_lt.2 hb.1, Nat.not_lt.2 hb.2, hc, hd]

/-- What is decoded begins with a character, if it is not empty. -/
lemma exists_encodes_of_decodeUtf8From {i : Nat} {s : List UInt8} {cs : List Char}
    (h : decodeUtf8From i s = .ok cs) :
    s = [] ∧ cs = [] ∨ ∃ bytes n rest ds, Encodes bytes n ∧ s = bytes ++ rest ∧
      cs = Char.ofNat n :: ds ∧ decodeUtf8From (i + bytes.length) rest = .ok ds := by
  have hdecodes : ∀ {bytes rest : List UInt8} {n : Nat}, Encodes bytes n →
      consDecoded n (decodeUtf8From (i + bytes.length) rest) = .ok cs →
      ∃ bytes' n rest' ds, Encodes bytes' n ∧ bytes ++ rest = bytes' ++ rest' ∧
        cs = Char.ofNat n :: ds ∧ decodeUtf8From (i + bytes'.length) rest' = .ok ds := by
    intro bytes rest n hencodes hcs
    obtain ⟨ds, hds, rfl⟩ := consDecoded_eq_ok.1 hcs
    exact ⟨bytes, n, rest, ds, hencodes, rfl, rfl, hds⟩
  cases s with
  | nil =>
    cases h
    exact .inl ⟨rfl, rfl⟩
  | cons a s =>
    right
    rw [decodeUtf8From] at h
    split_ifs at h with ha
    · exact hdecodes (.one ha) h
    split at h
    next => cases h
    next l hlead =>
      split at h
      next => cases h
      next b s =>
      split at h
      next => cases h
      next hb =>
      split at h
      next hzero => exact hdecodes (.two hlead hzero (by omega)) h
      next hzero =>
      split at h
      next => cases h
      next c s =>
      split at h
      next => cases h
      next hc =>
      split at h
      next hone => exact hdecodes (.three hlead hone (by omega) (by simpa using hc)) h
      next hone =>
      split at h
      next => cases h
      next d s =>
      split at h
      next => cases h
      next hd =>
        have htwo : l.more = 2 := by
          obtain ⟨-, rfl⟩ | ⟨-, rfl⟩ | ⟨-, rfl⟩ := eq_of_lead? hlead
          · exact absurd rfl hzero
          · exact absurd rfl hone
          · rfl
        exact hdecodes (.four hlead htwo (by omega) (by simpa using hc) (by simpa using hd)) h

lemma decodeUtf8From_flatMap (cs : List Char) (i : Nat) :
    decodeUtf8From i (cs.flatMap String.utf8EncodeChar) = .ok cs := by
  induction cs generalizing i with
  | nil => rfl
  | cons c cs ih =>
    rw [List.flatMap_cons, (encodes_utf8EncodeChar c).decodeUtf8From_append, ih, consDecoded,
      Char.ofNat_toNat]

lemma eq_flatMap_of_decodeUtf8From {i : Nat} {s : List UInt8} {cs : List Char}
    (h : decodeUtf8From i s = .ok cs) : s = cs.flatMap String.utf8EncodeChar := by
  -- Every character is shorter than what it begins, so that the induction is on the characters.
  induction cs generalizing i s with
  | nil =>
    obtain ⟨rfl, -⟩ | ⟨_, _, _, _, -, -, hcs, -⟩ := exists_encodes_of_decodeUtf8From h
    · rfl
    · cases hcs
  | cons c cs ih =>
    obtain ⟨-, hcs⟩ | ⟨bytes, n, rest, ds, hencodes, rfl, hcs, hrest⟩ :=
      exists_encodes_of_decodeUtf8From h
    · cases hcs
    · obtain ⟨rfl, rfl⟩ := List.cons.inj hcs
      rw [List.flatMap_cons, ← ih hrest, ← hencodes.eq_utf8EncodeChar.2]

/-- Bytes are decoded into the characters whose encodings they are, and into nothing else. -/
theorem decodeUtf8_eq_ok {s : List UInt8} {cs : List Char} :
    decodeUtf8 s = .ok cs ↔ s = cs.flatMap String.utf8EncodeChar := by
  refine ⟨eq_flatMap_of_decodeUtf8From, ?_⟩
  rintro rfl
  exact decodeUtf8From_flatMap cs 0

/-- Decoding fails exactly on what is no valid UTF-8. -/
theorem exists_decodeUtf8_eq_error {s : List UInt8} :
    (∃ fault, decodeUtf8 s = .error fault) ↔ ¬ s.toByteArray.IsValidUTF8 := by
  constructor
  · rintro ⟨fault, hfault⟩ ⟨cs, hcs⟩
    have hs : s = cs.flatMap String.utf8EncodeChar := by
      simpa [List.utf8Encode] using congrArg (·.data.toList) hcs
    rw [decodeUtf8_eq_ok.2 hs] at hfault
    cases hfault
  · intro hvalid
    cases hdecode : decodeUtf8 s with
    | error fault => exact ⟨fault, rfl⟩
    | ok cs => exact absurd ⟨cs, congrArg _ (decodeUtf8_eq_ok.1 hdecode)⟩ hvalid

end LoadTest.Text
