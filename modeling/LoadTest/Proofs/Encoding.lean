import LoadTest.Control.ConfigJson
import LoadTest.Proofs.Binding

/-!
# Requests and their JSON

A request that is written as JSON is read back, whatever characters its texts are made of. That does
not hang on the order of the fields, nor on whether those are there that have nothing to say. And a
request that was read from some JSON, in whatever form, has a watch interval of 64 bits, so that it
is read back too.
-/

namespace LoadTest

open Text

namespace Json

/-! ### Texts -/

/-- A control character is written by its number. -/
lemma hexValue4?_hexDigit : ∀ n < 0x20,
    hexValue4? '0' '0' (hexDigit (n / 16)) (hexDigit (n % 16)) = some n := by
  decide

/-- What is written for a character is read as that character. -/
lemma readString_escape (c : Char) (t : List Char) :
    readString (escape c ++ t) = consRead c (readString t) := by
  unfold escape
  split_ifs with hquote hslash hb hf hn hr ht hcontrol
  · subst hquote
    rfl
  · subst hslash
    rfl
  · subst hb
    rfl
  · subst hf
    rfl
  · subst hn
    rfl
  · subst hr
    rfl
  · subst ht
    rfl
  · simp only [List.cons_append, List.nil_append]
    rw [readString, hexValue4?_hexDigit _ hcontrol]
    simp only []
    rw [if_pos (.inl (by omega)), Char.ofNat_toNat]
  · rw [List.singleton_append, readString, if_neg hcontrol]
    · exact hquote
    · rintro a b d e s rfl
      exact absurd rfl hslash
    · rintro s rfl
      exact absurd rfl hslash
    · rintro rfl
      exact absurd rfl hslash
    · rintro d s rfl
      exact absurd rfl hslash

lemma readString_flatMap_escape (s t : List Char) :
    readString (s.flatMap escape ++ '"' :: t) = .ok (s, t) := by
  induction s with
  | nil => rfl
  | cons c s ih => rw [List.flatMap_cons, List.append_assoc, readString_escape, ih, consRead]

lemma skipSpace_cons {c : Char} (h : isSpace c = false) (t : List Char) :
    skipSpace (c :: t) = c :: t := by
  rw [skipSpace, List.dropWhile_cons_of_neg (by simp [h])]

lemma readText_quote (s t : List Char) : readText (quote s ++ t) = .ok (String.ofList s, t) := by
  have hquote : quote s ++ t = '"' :: (s.flatMap escape ++ '"' :: t) := by simp [quote]
  rw [hquote, readText, skipSpace_cons (by decide)]
  simp only [readString_flatMap_escape]

/-! ### Numbers -/

/-- What follows a value inside of an object. -/
def EndsValue (t : List Char) : Prop := ∃ c s, (c = ',' ∨ c = '\x7d') ∧ t = c :: s

lemma isSome_digitValue?_of_mem {c : Char} {n : Nat} (h : c ∈ Nat.toDigits 10 n) :
    (digitValue? c).isSome := by
  refine forall_mem_toDigits (P := fun c => (digitValue? c).isSome) ?_ n c h
  intro d hd
  simp [digitValue?_digitChar d hd]

lemma spanDigits_append (ds : List Char) {t : List Char} (hds : ∀ c ∈ ds, (digitValue? c).isSome)
    (ht : EndsValue t) : spanDigits (ds ++ t) = (ds, t) := by
  obtain ⟨c, s, hc, rfl⟩ := ht
  have hend : (digitValue? c).isSome = false := by
    obtain rfl | rfl := hc <;> decide
  rw [spanDigits, List.takeWhile_append_of_pos hds, List.dropWhile_append_of_pos hds,
    List.takeWhile_cons_of_neg (by simp [hend]), List.dropWhile_cons_of_neg (by simp [hend]),
    List.append_nil]

lemma digitsValue_toDigits (n : Nat) : digitsValue (Nat.toDigits 10 n) = n := by
  obtain ⟨ds, -, hds, hval, hchars⟩ := exists_toDigits_eq_map n
  rw [digitsValue, hchars, digitsFrom_map_digitChar hds, Option.getD_some, foldl_eq_ofDigits,
    ← hval]

/-- No number but zero is written with a zero in front. -/
lemma head?_toDigits {n : Nat} (hn : n ≠ 0) :
    ∃ d s, 0 < d ∧ d < 10 ∧ Nat.toDigits 10 n = Nat.digitChar d :: s := by
  induction n using Nat.strong_induction_on with
  | _ n ih =>
    rw [Nat.toDigits_eq_if (by decide)]
    split_ifs with hlt
    · exact ⟨n, [], by omega, hlt, rfl⟩
    · obtain ⟨d, s, hpos, hd, heq⟩ := ih (n / 10) (by omega) (by omega)
      exact ⟨d, s ++ [Nat.digitChar (n % 10)], hpos, hd, by rw [heq, List.cons_append]⟩

lemma readWhole_toDigits (n : Nat) {t : List Char} (ht : EndsValue t) :
    readWhole (Nat.toDigits 10 n ++ t) = .ok (Nat.toDigits 10 n, t) := by
  by_cases hn : n = 0
  · subst hn
    have hzero : Nat.toDigits 10 0 = ['0'] := rfl
    have hspan : spanDigits t = ([], t) := spanDigits_append [] (by simp) ht
    rw [hzero, List.singleton_append, readWhole, hspan]
  · have hspan := spanDigits_append _ (fun c => isSome_digitValue?_of_mem (n := n)) ht
    obtain ⟨d, s, hpos, hd, heq⟩ := head?_toDigits hn
    have hzero : Nat.digitChar d ≠ '0' := by
      have hall : ∀ d < 10, 0 < d → Nat.digitChar d ≠ '0' := by decide
      exact hall d hd hpos
    rw [heq, List.cons_append] at hspan ⊢
    rw [readWhole, hspan]
    · exact List.cons_ne_nil _ _
    · intro s' h
      exact hzero (List.cons.inj h).1

lemma readNumber_toDigits {n : Nat} (hn : n < capacity 64) {t : List Char} (ht : EndsValue t) :
    readNumber (Nat.toDigits 10 n ++ t) = .ok (some n, t) := by
  have hfraction : readFraction t = .ok (none, t) := by
    obtain ⟨c, s, rfl | rfl, rfl⟩ := ht <;> rfl
  have hexponent : readExponent t = .ok (none, t) := by
    obtain ⟨c, s, rfl | rfl, rfl⟩ := ht <;> rfl
  simp only [readNumber, bind, Except.bind, readWhole_toDigits n ht, hfraction, hexponent,
    digitsValue_toDigits]
  rw [if_pos ⟨rfl, rfl, hn⟩]
  rfl

lemma readNat_toDigits {n : Nat} (hn : n < capacity 64) {t : List Char} (ht : EndsValue t) :
    Json.readNat (Nat.toDigits 10 n ++ t) = .ok (n, t) := by
  obtain ⟨d, s, hd, heq⟩ : ∃ d s, d < 10 ∧ Nat.toDigits 10 n = Nat.digitChar d :: s := by
    obtain ⟨ds, hne, hds, -, hchars⟩ := exists_toDigits_eq_map n
    obtain ⟨d, ds, rfl⟩ := List.exists_cons_of_ne_nil hne
    exact ⟨d, ds.map Nat.digitChar, hds d List.mem_cons_self, hchars⟩
  have hspace : isSpace (Nat.digitChar d) = false := by
    have hall : ∀ d < 10, isSpace (Nat.digitChar d) = false := by decide
    exact hall d hd
  have hread := readNumber_toDigits hn ht
  rw [Json.readNat]
  rw [heq, List.cons_append] at hread ⊢
  simp only [skipSpace_cons hspace, digitValue?_digitChar d hd, Option.isSome_some, if_true, hread]

/-- A whole number that is read has 64 bits. -/
lemma lt_of_readNumber {n : Nat} {s t : List Char} (h : readNumber s = .ok (some n, t)) :
    n < capacity 64 := by
  simp only [readNumber, bind_eq_ok] at h
  obtain ⟨⟨whole, s⟩, -, ⟨fraction, s⟩, -, ⟨exponent, s⟩, -, h⟩ := h
  simp only [] at h
  split at h
  next hfits =>
    cases h
    exact hfits.2.2
  next =>
    split at h
    · cases h
    · cases h

lemma lt_of_readNat {n : Nat} {s t : List Char} (h : Json.readNat s = .ok (n, t)) :
    n < capacity 64 := by
  rw [Json.readNat] at h
  split at h
  · split at h
    · split at h
      next hread =>
        cases h
        exact lt_of_readNumber hread
      next => cases h
      next => cases h
    · cases h
  · cases h

end Json

open Json

/-! ### Fields -/

/-- The fields of a request. -/
inductive ConfigField where
  | behavior
  | runId
  | scenario
  | watchInterval
  deriving DecidableEq, Repr

def ConfigField.name : ConfigField → String
  | .behavior => "behavior"
  | .runId => "run_id"
  | .scenario => "scenario"
  | .watchInterval => "watch_interval"

namespace RunConfig

/-- What is written for the value of a field. -/
def value (c : RunConfig) : ConfigField → List Char
  | .behavior => jsonText c.behavior
  | .runId => jsonOptionalText c.runId
  | .scenario => jsonOptionalText c.scenario
  | .watchInterval => (toString c.watchInterval).toList

/-- Some fields of a request and the end of the object, where the first field may be the first one
of the object. -/
def members (c : RunConfig) : (first : Bool) → List ConfigField → List Char
  | _, [] => ['\x7d']
  | first, k :: ks =>
    (if first then [] else [',']) ++ jsonText k.name ++ ':' :: c.value k ++ c.members false ks

/-- The object of some fields of a request, in that order. -/
def object (c : RunConfig) (ks : List ConfigField) : List Char := '\x7b' :: c.members true ks

/-- The request has in a field what it would have without it. The behavior can not be left out. -/
def Omits (c : RunConfig) : ConfigField → Prop
  | .behavior => False
  | .runId => c.runId = none
  | .scenario => c.scenario = none
  | .watchInterval => c.watchInterval = defaultWatchInterval

/-- What is known of the request once some fields have been read. -/
def fieldsOf (c : RunConfig) (ks : List ConfigField) : ConfigFields where
  behavior := if .behavior ∈ ks then some c.behavior else none
  runId := if .runId ∈ ks then some c.runId else none
  scenario := if .scenario ∈ ks then some c.scenario else none
  watchInterval := if .watchInterval ∈ ks then some c.watchInterval else none

lemma encode_eq_object (c : RunConfig) :
    c.encode = c.object [.behavior, .runId, .scenario, .watchInterval] := by
  simp [encode, object, members, value, ConfigField.name]

lemma endsValue_members (c : RunConfig) (ks : List ConfigField) (t : List Char) :
    EndsValue (c.members false ks ++ t) := by
  cases ks with
  | nil => exact ⟨'\x7d', t, .inr rfl, rfl⟩
  | cons k ks => exact ⟨',', _, .inl rfl, rfl⟩

lemma readOptionalText_eq (o : Option String) (t : List Char) :
    readOptionalText (jsonOptionalText o ++ t) = .ok (o, t) := by
  cases o with
  | none => rfl
  | some s =>
    have hread : readText (quote s.toList ++ t) = .ok (s, t) := by
      rw [readText_quote, String.ofList_toList]
    have hquote : quote s.toList ++ t = '"' :: (s.toList.flatMap escape ++ '"' :: t) := by
      simp [quote]
    rw [jsonOptionalText, jsonText, readOptionalText]
    rw [hquote] at hread ⊢
    simp [skipSpace_cons (show isSpace '"' = false by decide), hread]

variable {c : RunConfig}

/-- A field that has not been read yet is read. -/
lemma readField_eq (hfits : c.watchInterval < capacity 64) {ks : List ConfigField} {k : ConfigField}
    (hk : k ∉ ks) {t : List Char} (ht : EndsValue t) :
    (c.fieldsOf ks).readField k.name.toList (':' :: c.value k ++ t) =
      .ok (c.fieldsOf (ks ++ [k]), t) := by
  have hcolon : isSpace ':' = false := by decide
  cases k with
  | behavior =>
    have hread : readText (jsonText c.behavior ++ t) = .ok (c.behavior, t) := by
      rw [jsonText, readText_quote, String.ofList_toList]
    simp [ConfigFields.readField, fieldsOf, hk, value, ConfigField.name, skipSpace_cons hcolon,
      hread]
  | runId =>
    simp [ConfigFields.readField, fieldsOf, hk, value, ConfigField.name, skipSpace_cons hcolon,
      readOptionalText_eq]
  | scenario =>
    simp [ConfigFields.readField, fieldsOf, hk, value, ConfigField.name, skipSpace_cons hcolon,
      readOptionalText_eq]
  | watchInterval =>
    simp [ConfigFields.readField, fieldsOf, hk, value, ConfigField.name, skipSpace_cons hcolon,
      readNat_toDigits hfits ht]

/-- Some fields are read up to the end of the object. -/
lemma readFields_members (hfits : c.watchInterval < capacity 64) {ks : List ConfigField}
    (read : List ConfigField) (hnodup : (read ++ ks).Nodup) (first : Bool) {fuel : Nat}
    (hfuel : ks.length < fuel) (t : List Char) :
    readFields fuel first (c.fieldsOf read) (c.members first ks ++ t) =
      .ok (c.fieldsOf (read ++ ks), t) := by
  induction ks generalizing read first fuel with
  | nil =>
    obtain ⟨fuel, rfl⟩ := Nat.exists_eq_add_one.2 hfuel
    rw [List.append_nil]
    rfl
  | cons k ks ih =>
    obtain ⟨fuel, rfl⟩ := Nat.exists_eq_add_one.2 (Nat.zero_lt_of_lt hfuel)
    have hk : k ∉ read := by
      intro hmem
      exact (List.nodup_append.1 hnodup).2.2 k hmem k List.mem_cons_self rfl
    have hrest := ih (read ++ [k]) (by simpa using hnodup) false (Nat.lt_of_succ_lt_succ hfuel)
    have hfield := readField_eq hfits hk (c.endsValue_members ks t)
    have hstring := readString_flatMap_escape k.name.toList
      (':' :: c.value k ++ (c.members false ks ++ t))
    have hquote : isSpace '"' = false := by decide
    have htext : jsonText k.name ++ (':' :: c.value k ++ (c.members false ks ++ t)) =
        '"' :: (k.name.toList.flatMap escape ++ '"' ::
          (':' :: c.value k ++ (c.members false ks ++ t))) := by
      simp [jsonText, quote]
    rw [List.append_assoc] at hrest
    cases first with
    | true =>
      have hmembers : c.members true (k :: ks) ++ t =
          jsonText k.name ++ (':' :: c.value k ++ (c.members false ks ++ t)) := by simp [members]
      rw [hmembers, htext]
      generalize ':' :: c.value k ++ (c.members false ks ++ t) = s at hstring hfield
      simp [readFields, skipSpace_cons hquote, hstring, hfield, hrest]
    | false =>
      have hmembers : c.members false (k :: ks) ++ t =
          ',' :: (jsonText k.name ++ (':' :: c.value k ++ (c.members false ks ++ t))) := by
        simp [members]
      have hcomma : isSpace ',' = false := by decide
      rw [hmembers, htext]
      generalize ':' :: c.value k ++ (c.members false ks ++ t) = s at hstring hfield
      simp [readFields, skipSpace_cons hcomma, skipSpace_cons hquote, hstring, hfield, hrest]

lemma length_le_members (c : RunConfig) (first : Bool) (ks : List ConfigField) :
    ks.length ≤ (c.members first ks).length := by
  induction ks generalizing first with
  | nil => exact Nat.zero_le _
  | cons k ks ih =>
    have hrest := ih false
    simp only [members, List.length_append, List.length_cons]
    omega

/-- The fields that are there make up the request, if nothing is lost by leaving out the others. -/
lemma config?_fieldsOf {ks : List ConfigField} (homits : ∀ k, k ∉ ks → c.Omits k) :
    (c.fieldsOf ks).config? = .ok c := by
  have hbehavior : .behavior ∈ ks := by
    by_contra hk
    exact homits .behavior hk
  have hrunId : (if .runId ∈ ks then some c.runId else none).getD none = c.runId := by
    by_cases hk : .runId ∈ ks
    · rw [if_pos hk, Option.getD_some]
    · rw [if_neg hk]
      exact (homits .runId hk).symm
  have hscenario : (if .scenario ∈ ks then some c.scenario else none).getD none = c.scenario := by
    by_cases hk : .scenario ∈ ks
    · rw [if_pos hk, Option.getD_some]
    · rw [if_neg hk]
      exact (homits .scenario hk).symm
  have hinterval : (if .watchInterval ∈ ks then some c.watchInterval else none).getD
      defaultWatchInterval = c.watchInterval := by
    by_cases hk : .watchInterval ∈ ks
    · rw [if_pos hk, Option.getD_some]
    · rw [if_neg hk]
      exact (homits .watchInterval hk).symm
  simp only [ConfigFields.config?, fieldsOf, if_pos hbehavior, hrunId, hscenario, hinterval]

/-- The fields may stand in any order, and those that have nothing to say may be missing. -/
lemma decode_object (hfits : c.watchInterval < capacity 64) {ks : List ConfigField}
    (hnodup : ks.Nodup) (homits : ∀ k, k ∉ ks → c.Omits k) : decode (c.object ks) = .ok c := by
  have hfields := readFields_members hfits [] hnodup true
    (Nat.lt_succ_of_le (c.length_le_members true ks)) []
  rw [List.append_nil, List.nil_append] at hfields
  have hread : RunConfig.read (c.object ks) = .ok (c, []) := by
    rw [RunConfig.read, object, skipSpace_cons (by decide)]
    have hempty : ({} : ConfigFields) = c.fieldsOf [] := rfl
    simp only [hempty, hfields, config?_fieldsOf homits]
    rfl
  rw [decode, hread]
  rfl

end RunConfig

/-! ### Requests that were read -/

/-- The watch interval has 64 bits, if there is one. -/
def ConfigFields.Fits (f : ConfigFields) : Prop := ∀ n, f.watchInterval = some n → n < capacity 64

/-- Whatever the field, its value is what is read behind the colon. -/
lemma exists_read_of_value {α β : Type} {old : Option α} {read : List Char → Reading α}
    {set : α → β} {s t : List Char} {b : β}
    (h : (if old.isSome then .error .unfit
      else
        match skipSpace s with
        | [] => .error .truncated
        | ':' :: s =>
          match read s with
          | .ok (a, rest) => .ok (set a, rest)
          | .error e => .error e
        | _ => .error .malformed : Reading β) = .ok (b, t)) :
    ∃ a s, read s = .ok (a, t) ∧ b = set a := by
  split at h
  · cases h
  · split at h
    next => cases h
    next s _ =>
      split at h
      next a rest hread =>
        cases h
        exact ⟨a, s, hread, rfl⟩
      next => cases h
    next => cases h

namespace ConfigFields.Fits

variable {f g : ConfigFields} {s t : List Char}

lemma readField (h : f.Fits) {name : List Char} (hread : f.readField name s = .ok (g, t)) :
    g.Fits := by
  rw [ConfigFields.readField] at hread
  split at hread
  · obtain ⟨a, _, -, rfl⟩ := exists_read_of_value hread
    exact h
  · split at hread
    · obtain ⟨a, _, -, rfl⟩ := exists_read_of_value hread
      exact h
    · split at hread
      · obtain ⟨a, _, -, rfl⟩ := exists_read_of_value hread
        exact h
      · split at hread
        · obtain ⟨a, _, hvalue, rfl⟩ := exists_read_of_value hread
          intro n hn
          cases hn
          exact lt_of_readNat hvalue
        · obtain ⟨a, _, -, rfl⟩ := exists_read_of_value hread
          exact h

lemma readFields (h : f.Fits) {fuel : Nat} {first : Bool}
    (hread : readFields fuel first f s = .ok (g, t)) : g.Fits := by
  induction fuel generalizing first f s with
  | zero => cases hread
  | succ fuel ih =>
    rw [LoadTest.readFields] at hread
    split at hread
    next => cases hread
    next =>
      cases hread
      exact h
    next =>
      split at hread
      · cases hread
      · split at hread
        next => cases hread
        next =>
          split at hread
          next => cases hread
          next =>
            split at hread
            next => cases hread
            next hfield => exact ih (h.readField hfield) hread
        next => cases hread

lemma readItems (hread : readItems s = .ok (g, t)) : g.Fits := by
  simp only [LoadTest.readItems, bind_eq_ok] at hread
  obtain ⟨⟨behavior, s₁⟩, -, hread⟩ := hread
  split at hread
  · cases hread
  · simp only [bind_eq_ok] at hread
    obtain ⟨⟨runId, s₂⟩, -, ⟨scenario, s₃⟩, -, ⟨interval, s₄⟩, hinterval, hread⟩ := hread
    split at hread
    next => cases hread
    next =>
      cases hread
      intro n hn
      rw [readItem] at hinterval
      split at hinterval
      next => cases hinterval
      next =>
        cases hinterval
        cases hn
      next =>
        split at hinterval
        next hvalue =>
          cases hinterval
          cases hn
          exact lt_of_readNat hvalue
        next => cases hinterval
    next => cases hread

end ConfigFields.Fits

lemma ConfigFields.lt_of_config? {f : ConfigFields} (h : f.Fits) {c : RunConfig}
    (hc : f.config? = .ok c) : c.watchInterval < capacity 64 := by
  rw [config?] at hc
  split at hc
  · cases hc
  · cases hc
    cases hinterval : f.watchInterval with
    | none =>
      show defaultWatchInterval < capacity 64
      decide
    | some n => exact h n hinterval

namespace RunConfig

lemma lt_of_read {s t : List Char} {c : RunConfig} (h : RunConfig.read s = .ok (c, t)) :
    c.watchInterval < capacity 64 := by
  have hconfig {f : ConfigFields} {rest : List Char} (hf : f.Fits)
      (hmap : (f.config?.map fun c => (c, rest)) = .ok (c, t)) : c.watchInterval < capacity 64 := by
    obtain ⟨c, hc, heq⟩ := map_eq_ok.1 hmap
    cases heq
    exact ConfigFields.lt_of_config? hf hc
  rw [RunConfig.read] at h
  split at h
  next =>
    beta_reduce at h
    split at h
    next => cases h
    next hfields =>
      refine hconfig (ConfigFields.Fits.readFields ?_ hfields) h
      intro n hn
      cases hn
  next =>
    beta_reduce at h
    split at h
    next => cases h
    next hfields => exact hconfig (ConfigFields.Fits.readItems hfields) h
  next => cases h

lemma lt_of_decode {s : List Char} {c : RunConfig} (h : decode s = .ok c) :
    c.watchInterval < capacity 64 := by
  rw [decode] at h
  split at h
  next => cases h
  next hread =>
    split at h
    · cases h
      exact lt_of_read hread
    · cases h

/-- A request whose watch interval has 64 bits, whatever its texts are and whether the optional ones
are there, is read back from what is written for it; it is also read from an object of its fields in
any other order, and without those that have nothing to say. A request that was read from any JSON
at all is read back from what is written for it. -/
theorem decode_encode :
    (∀ c : RunConfig, c.watchInterval ≤ 18446744073709551615 → decode c.encode = .ok c ∧
      ∀ ks : List ConfigField, ks.Nodup → (∀ k, k ∉ ks → c.Omits k) →
        decode (c.object ks) = .ok c) ∧
    ∀ (s : List Char) (c : RunConfig), decode s = .ok c → decode c.encode = .ok c := by
  have hencode {c : RunConfig} (hfits : c.watchInterval < capacity 64) :
      decode c.encode = .ok c := by
    rw [encode_eq_object]
    refine decode_object hfits (by decide) ?_
    intro k hk
    cases k <;> simp at hk
  constructor
  · intro c hinterval
    have hfits : c.watchInterval < capacity 64 := Nat.lt_of_le_of_lt hinterval (by decide)
    exact ⟨hencode hfits, fun ks hnodup homits => decode_object hfits hnodup homits⟩
  · intro s c h
    exact hencode (lt_of_decode h)

/-- A text with quotes, a backslash, control characters and one beyond the first plane. -/
def trickyConfig : RunConfig where
  behavior := "\"b\\\x01\n\x7fé😀"
  runId := some ""
  watchInterval := 18446744073709551615

/-- Fields out of order, with a blank, an escaped pair of surrogates, a field of no use, and one
that is null. -/
def looseText : List Char :=
  " \x7b\"watch_interval\":7, \"x\":[1,\x7b\x7d],\"scenario\":null,".toList ++
    "\"behavior\":\"\\ud83d\\ude00\"\x7d".toList

def listText : List Char := "[\"b\",null,\"Delay();\"]".toList

theorem decode_encode_of_loose_texts :
    (decode trickyConfig.encode = .ok trickyConfig ∧
      decode (trickyConfig.object [.watchInterval, .runId, .behavior]) = .ok trickyConfig) ∧
    (decode looseText = .ok { behavior := "😀", watchInterval := 7 } ∧
      decode (encode { behavior := "😀", watchInterval := 7 }) =
        .ok { behavior := "😀", watchInterval := 7 }) ∧
    decode listText = .ok { behavior := "b", scenario := some "Delay();" } ∧
      decode (encode { behavior := "b", scenario := some "Delay();" }) =
        .ok { behavior := "b", scenario := some "Delay();" } := by
  have hloose : decode looseText = .ok { behavior := "😀", watchInterval := 7 } := by
    decide +kernel
  have hlist : decode listText = .ok { behavior := "b", scenario := some "Delay();" } := by
    decide +kernel
  have htricky := decode_encode.1 trickyConfig (by decide)
  refine ⟨⟨htricky.1, htricky.2 _ (by decide) ?_⟩, ⟨hloose, decode_encode.2 _ _ hloose⟩, hlist,
    decode_encode.2 _ _ hlist⟩
  intro k hk
  obtain rfl : k = .scenario := by
    cases k with
    | scenario => rfl
    | _ => simp at hk
  rfl

end RunConfig

end LoadTest
