import LoadTest.Proofs.Meaning
import LoadTest.Proofs.NormalForm
import Mathlib.Data.Bool.AllAny
import Mathlib.Data.List.Basic

/-!
# Repetitions of a scenario

What a repetition compiles to is said by what its body compiles to on its own: the same fault, the
same work units so many times over, or a fault if they are too many. The body may be any text whose
braces match once it is normalized, so it may hold repetitions itself.
-/

namespace LoadTest

open Text

variable {ν : Type}

/-- The text that repeats a scenario. -/
def repetition (times : UInt32) (body : String) : String :=
  "Repeat(times:" ++ toString times.toNat ++ ")\x7b" ++ body ++ "\x7d"

/-- What stands before the number. -/
def timesPrefix : List Char := "times:".toList

/-- The arguments of a repetition. -/
def timesArgs (times : Nat) : List Char := timesPrefix ++ Nat.toDigits 10 times

/-- The statement that repeats a text in normal form. -/
def repetitionOf (times : Nat) (body : List Char) : Statement where
  keyword := repeatKeyword
  text := head repeatKeyword (timesArgs times) ++ ('\x7b' :: body ++ ['\x7d'])
  args := timesArgs times
  body := some body

/-! ### The text -/

lemma toList_repetition (times : UInt32) (body : String) :
    (repetition times body).toList =
      ("Repeat(times:".toList ++ Nat.toDigits 10 times.toNat ++ [')']) ++
        '\x7b' :: (body.toList ++ ['\x7d']) := by
  have hopen : ")\x7b".toList = [')'] ++ ['\x7b'] := by decide
  have hclose : "\x7d".toList = ['\x7d'] := by decide
  show ("Repeat(times:" ++ toString times.toNat ++ ")\x7b" ++ body ++ "\x7d").toList = _
  rw [String.toList_append, String.toList_append, String.toList_append, String.toList_append,
    Nat.toString_eq_repr, Nat.toList_repr, hopen, hclose, List.append_assoc,
    ← List.append_assoc _ [')'], List.append_assoc _ ['\x7b']]
  rfl

lemma normalize_repetition (times : UInt32) {body : String} {s : List Char}
    (hs : normalize body = .ok s) :
    normalize (repetition times body) = .ok (repetitionOf times.toNat s).text := by
  have hplain : ∀ c ∈ "Repeat(times:".toList ++ Nat.toDigits 10 times.toNat ++ [')'],
      IsPlain c := by
    have hname : ∀ c ∈ "Repeat(times:".toList, IsPlain c :=
      List.all_iff_forall_prop.1 (by decide)
    have hdigits : ∀ c ∈ Nat.toDigits 10 times.toNat, IsPlain c :=
      forall_mem_toDigits (by decide) times.toNat
    have hend : ∀ c ∈ [')'], IsPlain c := List.all_iff_forall_prop.1 (by decide)
    exact List.forall_mem_append.2 ⟨List.forall_mem_append.2 ⟨hname, hdigits⟩, hend⟩
  have hname : "Repeat(times:".toList.flatMap lowerChar = repeatKeyword ++ '(' :: timesPrefix := by
    decide
  have hdigits : (Nat.toDigits 10 times.toNat).flatMap lowerChar = Nat.toDigits 10 times.toNat := by
    have hall : ∀ c ∈ Nat.toDigits 10 times.toNat, lowerChar c = [c] :=
      forall_mem_toDigits (by decide) times.toNat
    exact (List.flatMap_congr hall).trans (List.flatMap_singleton' _)
  have hend : [')'].flatMap lowerChar = [')'] := by decide
  rw [normalize_block hplain (toList_repetition times body) hs, List.flatMap_append,
    List.flatMap_append, hname, hdigits, hend]
  simp [repetitionOf, head, timesArgs]

lemma balanced_repetitionOf (times : Nat) {s : List Char} (hs : Balanced s) :
    Balanced (repetitionOf times s).text := by
  have hname : ∀ c ∈ repeatKeyword ++ '(' :: timesPrefix ++ [')'], c ≠ '\x7b' ∧ c ≠ '\x7d' :=
    List.all_iff_forall_prop.1 (by decide)
  have hdigits : ∀ c ∈ Nat.toDigits 10 times, c ≠ '\x7b' ∧ c ≠ '\x7d' :=
    forall_mem_toDigits (by decide) times
  have hhead : ∀ c ∈ head repeatKeyword (timesArgs times), c ≠ '\x7b' ∧ c ≠ '\x7d' := by
    intro c hc
    simp only [head, timesArgs, List.mem_append, List.mem_cons] at hc hname
    grind
  refine (balancedFrom_append ?_ _).2 (balancedFrom_open.2 hs.close)
  exact ⟨fun h => (hhead _ h).1 rfl, fun h => (hhead _ h).2 rfl⟩

/-- The text starts with the statement, and goes on with nothing. -/
lemma starts_repetitionOf (times : Nat) {s : List Char} (hs : Balanced s) :
    Starts (builtin : Registry ν).find? Command.form (repetitionOf times s).text .repeated
      (repetitionOf times s) [] := by
  have hargs : ')' ∉ timesArgs times := by
    have hname : ')' ∉ timesPrefix := by decide
    have hdigits : ')' ∉ Nat.toDigits 10 times := not_mem_toDigits (by decide) times
    exact List.not_mem_append hname hdigits
  exact .block not_mem_repeatKeyword find?_repeatKeyword rfl hargs hs (by simp)

/-- Its arguments say how often. -/
lemma reads_timesArgs {times : Nat} (htimes : times < 2 ^ 32) :
    AllNamed (timesArgs times) ∧ Reads (timesArgs times) "times" 32 times := by
  have hitems : (timesArgs times).splitOn ',' = [timesArgs times] := by
    have hname : ',' ∉ timesPrefix := by decide
    have hdigits : ',' ∉ Nat.toDigits 10 times := not_mem_toDigits (by decide) times
    exact List.splitOn_eq_singleton (List.not_mem_append hname hdigits)
  have hcolon : ':' ∈ timesPrefix := by decide
  have hprefix : timesPrefix = "times".toList ++ [':'] := by decide
  have hnumeral : IsNumeral (Nat.toDigits 10 times) times := by
    simpa using isNumeral_toString times
  constructor
  · rw [AllNamed, hitems]
    simp [timesArgs, hcolon]
  · refine ⟨_, ⟨[], [], ?_, by simp⟩, hnumeral, htimes⟩
    rw [hitems, timesArgs, hprefix, List.append_assoc]
    rfl

/-! ### The work units -/

/-- What a repetition does once its parameters have been read: its body is compiled, and then the
bound decides. -/
lemma Command.handler_repeated_eq {s : Statement} {times : Nat} (hnamed : AllNamed s.args)
    (htimes : Reads s.args "times" 32 times) (work : Drafting ν Unit) (d : Draft ν) :
    Command.repeated.handler s (some work) d =
      match Drafting.aside work d with
      | .error e d₁ => .error e d₁
      | .ok units d₁ =>
        if units.size * times + d₁.units.size > maxWorkUnits then
          .error (.invalidParameter (String.ofList s.text) "times" (toString times)) d₁
        else .ok none (d₁.append (List.replicate times units.toList).flatten) := by
  obtain ⟨p, hp⟩ := Params.exists_ofStatement.2 hnamed
  have hrequired := (Params.required_readNat hp (by decide)).2 htimes
  refine (Drafting.bind_ofExcept hp _ d).trans ((Drafting.bind_ofExcept hrequired _ d).trans ?_)
  cases haside : Drafting.aside work d with
  | error e d₁ => exact Drafting.bind_of_error haside
  | ok units d₁ =>
    refine (Drafting.bind_of_ok haside).trans ?_
    refine (Drafting.bind_of_ok (Drafting.count_eq_ok.2 ⟨rfl, rfl⟩)).trans ?_
    by_cases hbound : units.size * times + d₁.units.size > maxWorkUnits
    · simp only [if_pos hbound]
      rw [← Params.statement_eq hp]
      exact Drafting.bind_of_error rfl
    · simp only [if_neg hbound]
      cases hempty : units.isEmpty with
      | true =>
        have hnone : units.toList = [] := by simpa using hempty
        simp only [if_true, hnone]
        exact Drafting.pure_eq_ok.2 ⟨rfl, by simp⟩
      | false =>
        simp only [if_neg Bool.false_ne_true]
        exact Drafting.bind_of_ok (Drafting.emitTimes_eq units times d₁)

namespace Registry

/-- A block whose body is compiled first: its fault, or the bound, or its work units so many times.
-/
lemma compileBlock_repetitionOf {times : Nat} (htimes : times < 2 ^ 32) {s : List Char}
    (hs : Balanced s) :
    (builtin : Registry ν).compileBlock (repetitionOf times s).text {} =
      match Drafting.aside ((builtin : Registry ν).compileBlock s) {} with
      | .error e d => .error e d
      | .ok units d =>
        if units.size * times + d.units.size > maxWorkUnits then
          .error (.invalidParameter (String.ofList (repetitionOf times s).text) "times"
            (toString times)) d
        else .ok () (d.append (List.replicate times units.toList).flatten) := by
  obtain ⟨hnamed, hreads⟩ := reads_timesArgs htimes
  obtain ⟨found, hfound, hcommand, hstatement, hrest⟩ :=
    (starts_repetitionOf (ν := ν) times hs).exists_locate
  have hhandler := Command.handler_repeated_eq (s := repetitionOf times s) hnamed hreads
    ((builtin : Registry ν).compileBlock s) {}
  rw [compileBlock_of_locate_ok (by simp [repetitionOf, head]) hfound, hcommand, hstatement, hrest]
  cases haside : Drafting.aside ((builtin : Registry ν).compileBlock s) {} with
  | error e d =>
    rw [haside] at hhandler
    exact Drafting.bind_of_error hhandler
  | ok units d =>
    rw [haside] at hhandler
    simp only at hhandler ⊢
    split_ifs at hhandler ⊢
    · exact Drafting.bind_of_error hhandler
    · refine (Drafting.bind_of_ok hhandler).trans ((Drafting.bind_of_ok rfl).trans ?_)
      exact compileBlock_nil

lemma compile_of_normalize {text : String} {s : List Char} (hs : normalize text = .ok s) :
    (builtin : Registry ν).compile text =
      match (builtin : Registry ν).compileBlock s {} with
      | .ok _ d => .ok d.units
      | .error e _ => .error e := by
  rw [compile, draft, hs]
  simp only
  split <;> simp_all

/-- A repetition is compiled like its body, as far as that goes. -/
lemma compile_repetition_eq (times : UInt32) {body : String} {s : List Char}
    (hs : normalize body = .ok s) (hbalanced : Balanced s) :
    (builtin : Registry ν).compile (repetition times body) =
      match (builtin : Registry ν).compile body with
      | .error e => .error e
      | .ok units =>
        if times.toNat * units.size ≤ 1000000 then
          .ok (List.replicate times.toNat units.toList).flatten.toArray
        else
          .error (.invalidParameter (String.ofList (repetitionOf times.toNat s).text) "times"
            (toString times.toNat)) := by
  rw [compile_of_normalize (normalize_repetition times hs), compile_of_normalize hs,
    compileBlock_repetitionOf times.toNat_lt hbalanced, Drafting.aside]
  cases hcompiled : (builtin : Registry ν).compileBlock s {} with
  | error e d => simp
  | ok u d =>
    have hbound : d.units.size * times.toNat + 0 > maxWorkUnits ↔
        ¬ times.toNat * d.units.size ≤ 1000000 := by
      rw [Nat.add_zero, Nat.mul_comm, Nat.not_le]
      rfl
    simp only [List.size_toArray, List.length_nil, hbound]
    by_cases hfits : times.toNat * d.units.size ≤ 1000000
    · simp [hfits, Draft.append]
    · simp [hfits]

/-- A repetition of a scenario whose braces match compiles to the fault that the scenario has, and
to its work units so many times over if it has none, unless these are more than a million. Its own
braces match again, so that it may be repeated in turn. -/
theorem compile_repetition (times : UInt32) {body : String} {s : List Char}
    (hs : normalize body = .ok s) (hbalanced : Balanced s) :
    ∃ t, normalize (repetition times body) = .ok t ∧ Balanced t ∧
      (∀ e, (builtin : Registry ν).compile body = .error e →
        (builtin : Registry ν).compile (repetition times body) = .error e) ∧
      ∀ units, (builtin : Registry ν).compile body = .ok units →
        (times.toNat * units.size ≤ 1000000 →
          (builtin : Registry ν).compile (repetition times body) =
            .ok (List.replicate times.toNat units.toList).flatten.toArray) ∧
        (1000000 < times.toNat * units.size →
          (builtin : Registry ν).compile (repetition times body) =
            .error (.invalidParameter (String.ofList t) "times" (toString times.toNat))) := by
  have heq := compile_repetition_eq (ν := ν) times hs hbalanced
  refine ⟨_, normalize_repetition times hs, balanced_repetitionOf _ hbalanced, fun e he => ?_,
    fun units hunits => ⟨fun hfits => ?_, fun hexceeds => ?_⟩⟩
  · rw [heq, he]
  · rw [heq, hunits]
    exact if_pos hfits
  · rw [heq, hunits]
    exact if_neg (Nat.not_le.2 hexceeds)

/-- Some naps around a comment that would close a block. -/
def napText : String :=
  "Repeat(times:2)\x7bCreateUsers(amount:1);\x7d ## no \x7d here ## Delay(seconds:1);"

def napTextNormal : List Char :=
  "repeat(times:2)\x7bcreateusers(amount:1);\x7ddelay(seconds:1);".toList

theorem compile_repetition_of_repetition :
    normalize napText = .ok napTextNormal ∧ Balanced napTextNormal ∧
      (builtin : Registry Empty).compile (repetition 2 napText) = .ok
        #[.create 1 .regular none, .create 1 .regular none, .delay 1000,
          .create 1 .regular none, .create 1 .regular none, .delay 1000] ∧
      (builtin : Registry Empty).compile (repetition 4294967295 napText) =
        .error (.invalidParameter ("repeat(times:4294967295)\x7brepeat(times:2)\x7b" ++
          "createusers(amount:1);\x7ddelay(seconds:1);\x7d") "times" "4294967295") := by
  have hnormal : normalize napText = .ok napTextNormal := by decide +kernel
  have hclose : closeBlock 0 (napTextNormal ++ ['\x7d']) = some (napTextNormal, []) := by
    decide +kernel
  have hbalanced : Balanced napTextNormal := (closeBlock_eq_some.1 hclose).2
  have hunits : (builtin : Registry Empty).compile napText =
      .ok #[.create 1 .regular none, .create 1 .regular none, .delay 1000] := by decide +kernel
  obtain ⟨_, -, -, -, htwice⟩ := compile_repetition (ν := Empty) 2 hnormal hbalanced
  obtain ⟨t, ht, -, -, hmost⟩ := compile_repetition (ν := Empty) 4294967295 hnormal hbalanced
  refine ⟨hnormal, hbalanced, (htwice _ hunits).1 (by decide), ?_⟩
  rw [normalize_repetition _ hnormal] at ht
  cases ht
  exact (hmost _ hunits).2 (by decide)

end Registry

end LoadTest
