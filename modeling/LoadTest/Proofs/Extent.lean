import LoadTest.Proofs.Joining

/-!
# How long a scenario gets

The bound on work units is looked at by repetitions only. Up to its last repetition a scenario comes
to no more than a million of them; each statement after that adds one, and nobody counts. So a
scenario that compiles goes on compiling however many simple statements are written behind it.
-/

namespace LoadTest

variable {ν : Type}

namespace Derivation

/-- None of the statements is a repetition. -/
def isPlain : Derivation → Bool
  | .nil => true
  | .simple _ _ rest => rest.isPlain
  | .block _ _ _ _ => false

/-- The number of statements after the last repetition, or of all statements if there is none. -/
def closing : Derivation → Nat
  | .nil => 0
  | .simple _ _ rest => if rest.isPlain then rest.closing + 1 else rest.closing
  | .block _ _ _ rest => rest.closing

variable {d : Derivation} {before : Nat} {units : List WorkUnit}

/-- Only repetitions look at what stands in front of them. -/
lemma Means.of_isPlain (h : d.Means before units) (hplain : d.isPlain = true) (before' : Nat) :
    d.Means before' units := by
  induction h generalizing before' with
  | nil => exact .nil
  | simple hunit _ ih => exact .simple hunit (ih hplain _)
  | block => cases hplain

/-- The work units up to the last repetition are within the bound, and each statement after it has
one. -/
lemma Means.exists_closing (h : d.Means before units) :
    ∃ repeated closing, units = repeated ++ closing ∧ closing.length = d.closing ∧
      if d.isPlain then repeated = [] else before + repeated.length ≤ maxWorkUnits := by
  induction h with
  | nil => exact ⟨[], [], rfl, rfl, rfl⟩
  | @simple before verb args rest unit units hunit _ ih =>
    obtain ⟨repeated, closing, rfl, hclosing, hrepeated⟩ := ih
    by_cases hplain : rest.isPlain = true
    · rw [if_pos hplain] at hrepeated
      subst hrepeated
      exact ⟨[], unit :: closing, rfl, by simp [Derivation.closing, hplain, hclosing],
        by simp [isPlain, hplain]⟩
    · rw [if_neg hplain] at hrepeated
      refine ⟨unit :: repeated, closing, rfl, by simp [Derivation.closing, hplain, hclosing], ?_⟩
      rw [isPlain, if_neg hplain, List.length_cons]
      omega
  | @block before times args body rest semicolon inner units _ _ _ hbound _ _ ih =>
    obtain ⟨repeated, closing, rfl, hclosing, hrepeated⟩ := ih
    have hlength : (List.replicate times inner).flatten.length = times * inner.length := by simp
    refine ⟨(List.replicate times inner).flatten ++ repeated, closing, by simp, hclosing, ?_⟩
    rw [isPlain, if_neg Bool.false_ne_true, List.length_append, hlength]
    by_cases hplain : rest.isPlain = true
    · rw [if_pos hplain] at hrepeated
      subst hrepeated
      exact hbound
    · rw [if_neg hplain] at hrepeated
      omega

end Derivation

namespace Registry

/-- In a scenario that compiles, the work units up to its last repetition are no more than the
bound, and each statement after it has one more. Simple statements may be written behind it without
end: the texts together compile to the work units of both, however many there are. -/
theorem extent_of_compile {text : String} {units : Array WorkUnit}
    (h : (builtin : Registry ν).compile text = .ok units) :
    (∃ s d repeated closing, normalize text = .ok s ∧ Derives s d ∧
      units.toList = repeated ++ closing ∧ closing.length = d.closing ∧
      repeated.length ≤ maxWorkUnits ∧ (d.isPlain = true → repeated = [])) ∧
    ∀ (more : String) (t : List Char) (e : Derivation) (v : Array WorkUnit),
      normalize more = .ok t → Derives t e → e.isPlain = true →
      (builtin : Registry ν).compile more = .ok v →
      (builtin : Registry ν).compile (text ++ more) = .ok (units ++ v) := by
  obtain ⟨s, d, hs, hd, hmeans⟩ := exists_means_of_compile h
  constructor
  · obtain ⟨repeated, closing, heq, hclosing, hrepeated⟩ := hmeans.exists_closing
    refine ⟨s, d, repeated, closing, hs, hd, heq, hclosing, ?_⟩
    by_cases hplain : d.isPlain = true
    · rw [if_pos hplain] at hrepeated
      subst hrepeated
      exact ⟨Nat.zero_le _, fun _ => rfl⟩
    · rw [if_neg hplain] at hrepeated
      exact ⟨by omega, fun hp => absurd hp hplain⟩
  · intro more t e v ht he hplain hv
    obtain ⟨t', e', ht', he', hmore⟩ := exists_means_of_compile hv
    obtain rfl : t = t' := Except.ok.inj (ht.symm.trans ht')
    obtain rfl : e = e' := he.unique he'
    have hjoined := hmeans.append (hmore.of_isPlain hplain (0 + units.toList.length))
    have hcompiled := (hd.append he).compileBlock_eq_ok (d := ({} : Draft ν)) hjoined
    rw [compile_of_normalize (normalize_append hs hd ht), hcompiled]
    simp [Draft.append]

/-- A pause of a second. -/
def pauseText : String := "Delay(seconds:1);"

lemma derives_pauseText :
    Derives "delay(seconds:1);".toList (.simple .delay "seconds:1".toList .nil) :=
  @Derives.simple .delay "seconds:1".toList [] .nil (by decide) .nil

/-- A repetition that reaches the bound, and one more pause behind it. -/
theorem extent_of_pauses :
    (builtin : Registry Empty).compile (repetition 1000000 pauseText ++ pauseText) =
        .ok (Array.replicate 1000001 (.delay 1000)) ∧
      maxWorkUnits < (Array.replicate 1000001 (WorkUnit.delay 1000)).size := by
  have hnormal : normalize pauseText = .ok "delay(seconds:1);".toList := by decide +kernel
  have hclose : closeBlock 0 ("delay(seconds:1);".toList ++ ['\x7d']) =
      some ("delay(seconds:1);".toList, []) := by decide +kernel
  have hpause : (builtin : Registry Empty).compile pauseText = .ok #[.delay 1000] := by
    decide +kernel
  have hrepeated : (builtin : Registry Empty).compile (repetition 1000000 pauseText) =
      .ok (Array.replicate 1000000 (.delay 1000)) := by
    rw [compile_repetition_eq _ hnormal (closeBlock_eq_some.1 hclose).2, hpause]
    have hflat (n : Nat) : (List.replicate n [WorkUnit.delay 1000]).flatten.toArray =
        Array.replicate n (.delay 1000) := by simp
    exact (if_pos (by decide)).trans (congrArg Except.ok (hflat _))
  refine ⟨?_, by simp [maxWorkUnits]⟩
  rw [(extent_of_compile hrepeated).2 pauseText _ _ _ hnormal derives_pauseText rfl hpause]
  exact congrArg Except.ok Array.replicate_succ.symm

end Registry

end LoadTest
