import LoadTest.Proofs.Repetition

/-!
# Joining scenarios

Two scenario texts that compile may be written one after the other. Nothing happens where they meet:
the first one leaves no comment open and ends with a semicolon or a brace, and the second one begins
with a keyword. So their statements come one after the other, and so do their work units as long as
these are no more than a million.
-/

namespace LoadTest

open Text

variable {ν : Type}

/-! ### Statements one after the other -/

/-- The statements of two scenarios, those of the first one first. -/
def Derivation.append : Derivation → Derivation → Derivation
  | .nil, e => e
  | .simple verb args rest, e => .simple verb args (rest.append e)
  | .block args body semicolon rest, e => .block args body semicolon (rest.append e)

lemma Derives.append {s t : List Char} {d e : Derivation} (hs : Derives s d) (ht : Derives t e) :
    Derives (s ++ t) (d.append e) := by
  induction hs with
  | nil => exact ht
  | simple hargs _ ih =>
    rw [List.append_assoc, List.cons_append]
    exact .simple hargs ih
  | @block args body rest b d semicolon hargs hbalanced hbody _ _ ih =>
    have hassoc : (repeatKeyword ++ '(' :: args ++ [')'] ++
          '\x7b' :: (body ++ '\x7d' :: (blockEnd semicolon ++ rest))) ++ t =
        repeatKeyword ++ '(' :: args ++ [')'] ++
          '\x7b' :: (body ++ '\x7d' :: (blockEnd semicolon ++ (rest ++ t))) := by
      simp
    rw [hassoc]
    exact .block hargs hbalanced hbody ih

/-- A scenario that is not empty ends with a semicolon or a brace. -/
lemma Derives.exists_getLast? {s : List Char} {d : Derivation} (h : Derives s d) (hs : s ≠ []) :
    ∃ c, IsTerminator c ∧ s.getLast? = some c := by
  have hlast : ∀ (c : Char) (p : List Char) {rest : List Char}, IsTerminator c →
      (rest ≠ [] → ∃ x, IsTerminator x ∧ rest.getLast? = some x) →
      ∃ x, IsTerminator x ∧ (p ++ c :: rest).getLast? = some x := by
    intro c p rest hc ih
    by_cases hrest : rest = []
    · exact ⟨c, hc, by simp [hrest]⟩
    · obtain ⟨x, hx, hlast⟩ := ih hrest
      exact ⟨x, hx, by rw [List.getLast?_append_cons, List.getLast?_cons_of_ne_nil hrest, hlast]⟩
  induction h with
  | nil => exact absurd rfl hs
  | simple _ _ ih => exact hlast ';' _ (.inl rfl) ih
  | @block args body rest b d semicolon _ _ _ _ _ ih =>
    have hassoc : repeatKeyword ++ '(' :: args ++ [')'] ++
          '\x7b' :: (body ++ '\x7d' :: (blockEnd semicolon ++ rest)) =
        (repeatKeyword ++ '(' :: args ++ [')'] ++ '\x7b' :: body) ++
          '\x7d' :: (blockEnd semicolon ++ rest) := by
      simp
    rw [hassoc]
    refine hlast '\x7d' _ (.inr rfl) fun hne => ?_
    cases semicolon with
    | false => exact ih hne
    | true => exact hlast ';' [] (.inl rfl) ih

/-! ### Their work units -/

/-- A scenario means the same wherever it stands, as long as its work units fit. -/
lemma Derivation.Means.moved {before : Nat} {d : Derivation} {units : List WorkUnit}
    (h : d.Means before units) {before' : Nat} (hfits : before' + units.length ≤ 1000000) :
    d.Means before' units := by
  induction h generalizing before' with
  | nil => exact .nil
  | simple hunit _ ih =>
    refine .simple hunit (ih ?_)
    rw [List.length_cons] at hfits
    omega
  | @block before times args body rest semicolon inner units hnamed htimes hbody _ _ _ ih =>
    have hlength : (List.replicate times inner).flatten.length = times * inner.length := by simp
    rw [List.length_append, hlength] at hfits
    exact .block hnamed htimes hbody (by omega) (ih (by omega))

lemma Derivation.Means.append {before : Nat} {d e : Derivation} {units more : List WorkUnit}
    (hd : d.Means before units) (he : e.Means (before + units.length) more) :
    (d.append e).Means before (units ++ more) := by
  induction hd with
  | nil => exact he
  | simple hunit _ ih =>
    refine .simple hunit (ih ?_)
    rwa [List.length_cons, ← Nat.add_assoc, Nat.add_right_comm] at he
  | @block before times args body rest semicolon inner units hnamed htimes hbody hbound _ _ ih =>
    have hlength : (List.replicate times inner).flatten.length = times * inner.length := by simp
    rw [List.append_assoc]
    refine .block hnamed htimes hbody hbound (ih ?_)
    rwa [List.length_append, hlength, ← Nat.add_assoc] at he

/-! ### Their texts -/

/-- The normal form of two texts in a row, if the first one is a scenario. -/
lemma normalize_append {a b : String} {s t : List Char} {d : Derivation}
    (ha : normalize a = .ok s) (hd : Derives s d) (hb : normalize b = .ok t) :
    normalize (a ++ b) = .ok (s ++ t) := by
  rw [normalize] at ha hb
  split at ha
  next kept hkept =>
    cases ha
    split at hb
    next kept' hkept' =>
      cases hb
      have hends : kept = [] ∨ ∃ c, IsTerminator c ∧ kept.getLast? = some c := by
        by_cases hne : kept = []
        · exact .inl hne
        · obtain ⟨c, hc, hlast⟩ := hd.exists_getLast? (lowerAfter_ne_nil hne [])
          exact .inr ⟨c, hc, getLast?_of_lowerAfter hc hlast⟩
      have hmarker : kept.getLast? ≠ some '#' := by
        obtain rfl | ⟨c, hc, hlast⟩ := hends
        · simp
        · rw [hlast]
          exact fun h => hc.ne_marker (Option.some.inj h)
      have hlower : lower (kept ++ kept') = lower kept ++ lower kept' := by
        obtain rfl | ⟨c, hc, hlast⟩ := hends
        · rfl
        · obtain ⟨p, rfl⟩ := List.getLast?_eq_some_iff.1 hlast
          exact lower_append hc.endsWords p kept'
      rw [normalize, String.toList_append, List.filter_append,
        dropComments_append hkept fun h => absurd h hmarker, hkept']
      simp [hlower]
    next => cases hb
  next => cases ha

namespace Registry

/-- What compiles has a derivation, which means its work units. -/
lemma exists_means_of_compile {text : String} {units : Array WorkUnit}
    (h : (builtin : Registry ν).compile text = .ok units) :
    ∃ s d, normalize text = .ok s ∧ Derives s d ∧ d.Means 0 units.toList := by
  cases hs : normalize text with
  | error e =>
    rw [compile, draft, hs] at h
    cases h
  | ok s =>
    rw [compile_of_normalize hs] at h
    split at h
    next d hcompiled =>
      cases h
      obtain ⟨t, units, ht, hmeans, rfl⟩ := exists_derives_of_compileBlock hcompiled
      exact ⟨s, t, rfl, ht, by simpa [Draft.append] using hmeans⟩
    next => cases h

/-- Two texts that compile do so together, to the work units of both, if these are not too many. -/
theorem compile_append {a b : String} {u v : Array WorkUnit}
    (ha : (builtin : Registry ν).compile a = .ok u) (hb : (builtin : Registry ν).compile b = .ok v)
    (hfits : u.size + v.size ≤ 1000000) :
    (builtin : Registry ν).compile (a ++ b) = .ok (u ++ v) := by
  obtain ⟨s, d, hs, hd, hu⟩ := exists_means_of_compile ha
  obtain ⟨t, e, ht, he, hv⟩ := exists_means_of_compile hb
  have hmoved : e.Means u.toList.length v.toList := hv.moved (by simpa using hfits)
  have hmeans : (d.append e).Means 0 (u.toList ++ v.toList) := by
    refine hu.append ?_
    rwa [Nat.zero_add]
  have hcompiled := (hd.append he).compileBlock_eq_ok (d := ({} : Draft ν)) hmeans
  rw [compile_of_normalize (normalize_append hs hd ht), hcompiled]
  simp [Draft.append]

/-- A block without a semicolon after it, and a comment whose last marker has a blank within. -/
def closingText : String :=
  "Delay(seconds:1); Repeat(times:2)\x7bCreateUsers(amount:1, Σ:ΟΔΟΣ);\x7d ## nobody # yet # #"

/-- A comment, and a repetition that counts what stands in front of it. -/
def openingText : String :=
  "## ΣΑΣ ## Repeat(times:3)\x7bRemoveCycledUsers(amount:2);\x7d;"

theorem compile_append_of_comments :
    (builtin : Registry Empty).compile (closingText ++ openingText) = .ok
      (#[.delay 1000, .create 1 .regular none, .create 1 .regular none] ++
        #[.remove 2 .cycled none, .remove 2 .cycled none, .remove 2 .cycled none]) :=
  compile_append (by decide +kernel) (by decide +kernel) (by decide)

end Registry

end LoadTest
