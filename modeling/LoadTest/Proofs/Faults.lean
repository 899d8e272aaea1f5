import LoadTest.Proofs.Openings
import LoadTest.Proofs.Repetition

/-!
# Faults of scenarios

Where a text fails to compile, and why. A text is compiled statement by statement, so the statements
before the one at fault leave what they leave on their own, and nothing else is left. The fault of a
block is that of its parameters, or else one that its body has on its own, or else the bound. The
rules below say which error a text gives, from the text alone.
-/

namespace LoadTest

open Text

variable {ν : Type}

/-! ### Which statement is at fault -/

/-- How often a repetition is to be done, by its own parameters. -/
def timesOf (s : Statement) : Except CompileError Nat := do
  (← Params.ofStatement s).required "times" (readNat 32)

/-- What is at fault: a statement, or a text that opens with none. -/
inductive Culprit where
  | statement (s : Statement)
  | text (text : List Char)

/-- The error that the beginning of a text gives where `before` work units stand in front of it, and
the innermost culprit. A block is at fault for its own parameters before anything else, then for
what its body has on its own, and for the bound only if its body has no fault. -/
inductive Fault : (before : Nat) → (text : List Char) → Culprit → CompileError → Prop
  | noStatement {before : Nat} {text : List Char} {e : CompileError} (hne : text ≠ [])
      (h : NoStatement text e) : Fault before text (.text text) e
  | simple {before : Nat} {verb : Verb} {args text rest : List Char} {e : CompileError}
      (hopens : Opens text (verb.statement args) rest)
      (h : verb.unit (verb.statement args) = .error e) :
      Fault before text (.statement (verb.statement args)) e
  | times {before : Nat} {args body text rest : List Char} {semicolon : Bool} {e : CompileError}
      (hopens : Opens text (blockOf args body semicolon) rest)
      (h : timesOf (blockOf args body semicolon) = .error e) :
      Fault before text (.statement (blockOf args body semicolon)) e
  | body {before times : Nat} {args body text rest bad : List Char} {semicolon : Bool}
      {statements : List Statement} {d : Derivation} {units : List WorkUnit} {culprit : Culprit}
      {e : CompileError} (hopens : Opens text (blockOf args body semicolon) rest)
      (htimes : timesOf (blockOf args body semicolon) = .ok times)
      (hpasses : Passes body statements bad) (hderives : Derives (statements.flatMap (·.text)) d)
      (hmeans : d.Means 0 units) (h : Fault units.length bad culprit e) :
      Fault before text culprit e
  | bound {before times : Nat} {args body text rest : List Char} {semicolon : Bool}
      {d : Derivation} {units : List WorkUnit}
      (hopens : Opens text (blockOf args body semicolon) rest)
      (htimes : timesOf (blockOf args body semicolon) = .ok times) (hderives : Derives body d)
      (hmeans : d.Means 0 units) (h : 1000000 < before + times * units.length) :
      Fault before text (.statement (blockOf args body semicolon))
        (.invalidParameter (String.ofList (blockOf args body semicolon).text) "times"
          (toString times))

/-! ### What an error quotes -/

/-- The statement that an error quotes. -/
def CompileError.statement? : CompileError → Option String
  | .unknownCommand _ statement | .missingParameter statement _
  | .invalidParameter statement _ _ | .zeroAmount statement | .malformed statement _ =>
    some statement
  | .unterminatedComment | .duplicateCommand _ => none

/-- The statement with a parameter that is missing or wrong. -/
def CompileError.parameterStatement? : CompileError → Option String
  | .missingParameter statement _ | .invalidParameter statement _ _ | .zeroAmount statement =>
    some statement
  | .unknownCommand _ _ | .malformed _ _ | .unterminatedComment | .duplicateCommand _ => none

/-- An error that a statement gives by its own parameters quotes all of it. -/
inductive OwnFault (s : Statement) : CompileError → Prop
  | unnamed : OwnFault s (.malformed (String.ofList s.text) .unnamedArgument)
  | missing (parameter : String) : OwnFault s (.missingParameter (String.ofList s.text) parameter)
  | invalid (parameter value : String) :
      OwnFault s (.invalidParameter (String.ofList s.text) parameter value)
  | zero : OwnFault s (.zeroAmount (String.ofList s.text))

section

variable {ε α β : Type}

lemma bind_eq_error {x : Except ε α} {f : α → Except ε β} {e : ε} :
    x >>= f = .error e ↔ x = .error e ∨ ∃ a, x = .ok a ∧ f a = .error e := by
  cases x with
  | error e' => simp [bind, Except.bind]
  | ok a => simp [bind, Except.bind]

lemma map_eq_error {x : Except ε α} {f : α → β} {e : ε} :
    f <$> x = .error e ↔ x = .error e := by
  cases x with
  | error e' => simp [Functor.map, Except.map]
  | ok a => simp [Functor.map, Except.map]

lemma pure_ne_error {a : α} {e : ε} : (pure a : Except ε α) ≠ .error e := by
  intro h
  cases h

end

namespace OwnFault

variable {s : Statement} {p : Params} {e : CompileError}

lemma of_ofStatement (h : Params.ofStatement s = .error e) : OwnFault s e := by
  rw [Params.ofStatement] at h
  split at h
  next => cases h
  next =>
    cases h
    exact .unnamed

lemma of_optional {α : Type} {name : String} {read : List Char → Option α}
    (hp : Params.ofStatement s = .ok p) (h : p.optional name read = .error e) : OwnFault s e := by
  rw [Params.optional] at h
  split at h
  next => cases h
  next =>
    split at h
    next => cases h
    next =>
      cases h
      rw [Params.invalid, Params.statement_eq hp]
      exact .invalid _ _

lemma of_required {α : Type} {name : String} {read : List Char → Option α}
    (hp : Params.ofStatement s = .ok p) (h : p.required name read = .error e) : OwnFault s e := by
  rw [Params.required] at h
  split at h
  next => cases h
  next =>
    cases h
    rw [Params.statement_eq hp]
    exact .missing _
  next hoptional =>
    cases h
    exact of_optional hp hoptional

lemma of_addUnit {total : Millis} {unit : String × Millis} (hp : Params.ofStatement s = .ok p)
    (h : p.addUnit total unit = .error e) : OwnFault s e := by
  rw [Params.addUnit] at h
  split at h
  next hoptional =>
    cases h
    exact of_optional hp hoptional
  next => cases h
  next =>
    split at h
    next => cases h
    next =>
      cases h
      rw [Params.invalid, Params.statement_eq hp]
      exact .invalid _ _

lemma of_duration (hp : Params.ofStatement s = .ok p) (h : p.duration = .error e) :
    OwnFault s e := by
  have hfold : ∀ (units : List (String × Millis)) (total : Millis),
      units.foldlM p.addUnit total = .error e → OwnFault s e := by
    intro units
    induction units with
    | nil => exact fun total h => absurd h pure_ne_error
    | cons unit units ih =>
      intro total h
      rw [List.foldlM_cons] at h
      obtain h | ⟨sum, -, h⟩ := bind_eq_error.1 h
      · exact of_addUnit hp h
      · exact ih sum h
  exact hfold _ _ h

lemma of_spanOf {amount : Nat} {timed : Bool} (hp : Params.ofStatement s = .ok p)
    (h : spanOf p amount timed = .error e) : OwnFault s e := by
  cases timed with
  | false => exact absurd h pure_ne_error
  | true =>
    simp only [spanOf, if_true, map_eq_error, spread] at h
    split_ifs at h
    · cases h
      rw [Params.statement_eq hp]
      exact .zero
    · exact of_duration hp h

lemma of_lifecycleOf {mode : Mode} (hp : Params.ofStatement s = .ok p)
    (h : lifecycleOf p mode = .error e) : OwnFault s e := by
  cases mode with
  | regular => cases h
  | looped => cases h
  | cycled =>
    obtain h | ⟨_, -, h⟩ := bind_eq_error.1 h
    · exact of_required hp h
    · cases h

/-- A simple statement that fails does so by its own parameters. -/
lemma of_unit {verb : Verb} (h : verb.unit s = .error e) : OwnFault s e := by
  cases verb with
  | create mode timed =>
    obtain h | ⟨p, hp, h⟩ := bind_eq_error.1 h
    · exact of_ofStatement h
    obtain h | ⟨amount, -, h⟩ := bind_eq_error.1 h
    · exact of_required hp h
    obtain h | ⟨lifecycle, -, h⟩ := bind_eq_error.1 h
    · exact of_lifecycleOf hp h
    obtain h | ⟨span, -, h⟩ := bind_eq_error.1 h
    · exact of_spanOf hp h
    · cases h
  | remove mode goesOn timed =>
    obtain h | ⟨p, hp, h⟩ := bind_eq_error.1 h
    · exact of_ofStatement h
    obtain h | ⟨amount, -, h⟩ := bind_eq_error.1 h
    · exact of_required hp h
    obtain h | ⟨span, -, h⟩ := bind_eq_error.1 h
    · exact of_spanOf hp h
    · cases h
  | delay =>
    obtain h | ⟨p, hp, h⟩ := bind_eq_error.1 h
    · exact of_ofStatement h
    obtain h | ⟨duration, -, h⟩ := bind_eq_error.1 h
    · exact of_duration hp h
    · cases h
  | waitForAll => cases h

lemma of_timesOf (h : timesOf s = .error e) : OwnFault s e := by
  obtain h | ⟨p, hp, h⟩ := bind_eq_error.1 h
  · exact of_ofStatement h
  · exact of_required hp h

lemma statement?_eq (h : OwnFault s e) : e.statement? = some (String.ofList s.text) := by
  cases h <;> rfl

lemma parameterStatement?_eq (h : OwnFault s e) {q : String}
    (hq : e.parameterStatement? = some q) : q = String.ofList s.text := by
  cases h <;> cases hq <;> rfl

end OwnFault

lemma upToTerminator_isPrefix (text : List Char) : upToTerminator text <+: text := by
  rw [upToTerminator]
  split
  next a b hsplit => exact ⟨b, by simp [(splitAtFirst_eq_some.1 hsplit).1]⟩
  next => exact List.prefix_rfl

lemma NoStatement.isInfix {text : List Char} {e : CompileError} (h : NoStatement text e)
    {q : String} (hq : e.statement? = some q) : q.toList <:+: text := by
  cases h
  case unknown =>
    cases hq
    rw [String.toList_ofList]
    exact (upToTerminator_isPrefix _).isInfix
  all_goals
    cases hq
    rewrite [String.toList_ofList]
    exact List.infix_rfl

lemma NoStatement.parameterStatement?_eq {text : List Char} {e : CompileError}
    (h : NoStatement text e) : e.parameterStatement? = none := by
  cases h <;> rfl

lemma Opens.isInfix {text rest : List Char} {s : Statement} (h : Opens text s rest) :
    s.text <:+: text := by
  rw [← h.text_append]
  exact (List.prefix_append _ _).isInfix

namespace Fault

variable {before : Nat} {text : List Char} {culprit : Culprit} {e : CompileError}

/-- Whatever an error quotes stands in the text. -/
lemma isInfix (h : Fault before text culprit e) {q : String} (hq : e.statement? = some q) :
    q.toList <:+: text := by
  induction h with
  | noStatement _ h => exact h.isInfix hq
  | simple hopens h =>
    rw [(OwnFault.of_unit h).statement?_eq] at hq
    cases hq
    rw [String.toList_ofList]
    exact hopens.isInfix
  | times hopens h =>
    rw [(OwnFault.of_timesOf h).statement?_eq] at hq
    cases hq
    rw [String.toList_ofList]
    exact hopens.isInfix
  | @body _ _ args body _ _ bad semicolon _ _ _ _ _ hopens _ hpasses _ _ _ ih =>
    have hbad : bad <:+: body := by
      rw [← hpasses.text_append]
      exact (List.suffix_append _ _).isInfix
    have hbody : body <:+: (blockOf args body semicolon).text :=
      ⟨head repeatKeyword args ++ ['\x7b'], '\x7d' :: blockEnd semicolon, by simp [blockOf]⟩
    exact ((ih hq).trans hbad).trans (hbody.trans hopens.isInfix)
  | bound hopens =>
    cases hq
    rw [String.toList_ofList]
    exact hopens.isInfix

/-- A parameter that is missing or wrong is one of the innermost statement at fault. -/
lemma parameterStatement?_eq (h : Fault before text culprit e) {q : String}
    (hq : e.parameterStatement? = some q) :
    ∃ s, culprit = .statement s ∧ q = String.ofList s.text := by
  induction h with
  | noStatement _ h =>
    rw [h.parameterStatement?_eq] at hq
    cases hq
  | simple _ h => exact ⟨_, rfl, (OwnFault.of_unit h).parameterStatement?_eq hq⟩
  | times _ h => exact ⟨_, rfl, (OwnFault.of_timesOf h).parameterStatement?_eq hq⟩
  | body _ _ _ _ _ _ ih => exact ih hq
  | bound =>
    cases hq
    exact ⟨_, rfl, rfl⟩

end Fault

/-! ### Compiling statement by statement -/

section

variable {r : Registry ν} {command : Command ν} {text rest : List Char} {s : Statement}

/-- A statement stands on its own as well. -/
lemma Starts.alone (h : Starts r.find? Command.form text command s rest) :
    Starts r.find? Command.form s.text command s [] := by
  cases h with
  | simple hkeyword hfind hform hargs => exact .simple hkeyword hfind hform hargs
  | block hkeyword hfind hform hargs hbody =>
    have h : Starts r.find? Command.form _ command _ [] :=
      .block hkeyword hfind hform hargs hbody (by simp)
    simpa using h
  | blockSemicolon hkeyword hfind hform hargs hbody =>
    have h : Starts r.find? Command.form _ command _ [] :=
      .blockSemicolon hkeyword hfind hform hargs hbody
    simpa using h

/-- The first statement of a text is handled by its command, and the rest is compiled after it. -/
lemma Starts.compileBlock_eq (h : Starts r.find? Command.form text command s rest) :
    r.compileBlock text = command.handler s (s.body.map r.compileBlock) >>= fun unit =>
      unit.elim (pure ()) Drafting.emit >>= fun _ => r.compileBlock rest := by
  have hne : text ≠ [] := by
    cases h <;> simp [head]
  obtain ⟨found, hfound, rfl, rfl, rfl⟩ := h.exists_locate
  exact Registry.compileBlock_of_locate_ok hne hfound

lemma Starts.compileBlock_alone (h : Starts r.find? Command.form text command s rest) :
    r.compileBlock s.text = command.handler s (s.body.map r.compileBlock) >>= fun unit =>
      unit.elim (pure ()) Drafting.emit := by
  have hnil : r.compileBlock [] = pure () := funext fun _ => Registry.compileBlock_nil
  rw [h.alone.compileBlock_eq, hnil]
  simp

end

section

variable {text rest : List Char} {s : Statement} {statements : List Statement} {d : Draft ν}

/-- The first statement is compiled as it is on its own, and then the rest. -/
lemma Opens.compileBlock_eq (h : Opens text s rest) :
    (builtin : Registry ν).compileBlock text =
      (builtin : Registry ν).compileBlock s.text >>= fun _ =>
        (builtin : Registry ν).compileBlock rest := by
  obtain ⟨command, hstarts, -⟩ := h.exists_starts (ν := ν)
  rw [hstarts.compileBlock_eq, hstarts.compileBlock_alone, bind_assoc]

/-- Whole statements are compiled as they are on their own, and then the rest. -/
lemma Passes.compileBlock_eq (h : Passes text statements rest) :
    (builtin : Registry ν).compileBlock text =
      (builtin : Registry ν).compileBlock (statements.flatMap (·.text)) >>= fun _ =>
        (builtin : Registry ν).compileBlock rest := by
  induction h with
  | nil =>
    have hnil : (builtin : Registry ν).compileBlock [] = pure () :=
      funext fun _ => Registry.compileBlock_nil
    rw [List.flatMap_nil, hnil, pure_bind]
  | @cons _ after _ s statements hopens hpasses ih =>
    rw [hopens.compileBlock_eq, ih, List.flatMap_cons, (hopens.before hpasses).compileBlock_eq,
      bind_assoc]

/-- What a simple statement compiles to. -/
lemma Verb.compileBlock_statement {verb : Verb} {args : List Char}
    (h : Opens text (verb.statement args) rest) :
    (builtin : Registry ν).compileBlock (verb.statement args).text d =
      match verb.unit (verb.statement args) with
      | .error e => .error e d
      | .ok unit => .ok () (d.append [unit]) := by
  obtain ⟨command, hstarts, ⟨verb', hs, rfl⟩ | ⟨body, semicolon, hs, -⟩⟩ := h.exists_starts (ν := ν)
  · obtain rfl : verb = verb' := keyword_injective (congrArg Statement.keyword hs)
    rw [hstarts.compileBlock_alone]
    cases hunit : verb.unit (verb.statement args) with
    | error e =>
      apply Drafting.bind_of_error
      simp only [Command.unit, hunit]
      rfl
    | ok unit =>
      refine (Drafting.bind_of_ok (Command.handler_unit_eq_ok.2 ⟨unit, hunit, rfl, rfl⟩)).trans ?_
      exact Drafting.emit_eq_ok.2 rfl
  · exact absurd hs (verb.statement_ne_blockOf _ _ _ _)

/-- The number of repetitions is what the arguments say. -/
lemma timesOf_eq_ok {s : Statement} {times : Nat} :
    timesOf s = .ok times ↔ AllNamed s.args ∧ Reads s.args "times" 32 times := by
  simp only [timesOf, bind_eq_ok]
  constructor
  · rintro ⟨p, hp, htimes⟩
    exact ⟨Params.exists_ofStatement.1 ⟨p, hp⟩, (Params.required_readNat hp (by decide)).1 htimes⟩
  · rintro ⟨hnamed, hreads⟩
    obtain ⟨p, hp⟩ := Params.exists_ofStatement.2 hnamed
    exact ⟨p, hp, (Params.required_readNat hp (by decide)).2 hreads⟩

/-- A repetition whose own parameters are at fault does not look at its body. -/
lemma Command.handler_repeated_of_timesOf {s : Statement} {e : CompileError}
    (h : timesOf s = .error e) (work : Option (Drafting ν Unit)) :
    Command.repeated.handler s work d = .error e d := by
  obtain hparams | ⟨p, hp, htimes⟩ := bind_eq_error.1 h
  · apply Drafting.bind_of_error
    rw [hparams]
    rfl
  · refine (Drafting.bind_ofExcept hp _ d).trans (Drafting.bind_of_error ?_)
    rw [htimes]
    rfl

/-- What a block compiles to: its own parameters come first, then its body on the side, and then
the bound. -/
lemma compileBlock_blockOf {args body : List Char} {semicolon : Bool}
    (h : Opens text (blockOf args body semicolon) rest) :
    (builtin : Registry ν).compileBlock (blockOf args body semicolon).text d =
      match timesOf (blockOf args body semicolon) with
      | .error e => .error e d
      | .ok times =>
        match Drafting.aside ((builtin : Registry ν).compileBlock body) d with
        | .error e d₁ => .error e d₁
        | .ok units d₁ =>
          if units.size * times + d₁.units.size > maxWorkUnits then
            .error (.invalidParameter (String.ofList (blockOf args body semicolon).text) "times"
              (toString times)) d₁
          else .ok () (d₁.append (List.replicate times units.toList).flatten) := by
  obtain ⟨command, hstarts, ⟨verb, hs, -⟩ | ⟨-, -, -, rfl⟩⟩ := h.exists_starts (ν := ν)
  · exact absurd hs.symm (verb.statement_ne_blockOf _ _ _ _)
  rw [hstarts.compileBlock_alone]
  cases htimes : timesOf (blockOf args body semicolon) with
  | error e => exact Drafting.bind_of_error (Command.handler_repeated_of_timesOf htimes _)
  | ok times =>
    obtain ⟨hnamed, hreads⟩ := timesOf_eq_ok.1 htimes
    have hhandler := Command.handler_repeated_eq hnamed hreads
      ((builtin : Registry ν).compileBlock body) d
    cases haside : Drafting.aside ((builtin : Registry ν).compileBlock body) d with
    | error e d₁ =>
      rw [haside] at hhandler
      exact Drafting.bind_of_error hhandler
    | ok units d₁ =>
      rw [haside] at hhandler
      simp only at hhandler ⊢
      split_ifs at hhandler ⊢
      · exact Drafting.bind_of_error hhandler
      · exact Drafting.bind_of_ok hhandler

/-- Work that only adds work units until it fails leaves the draft as it was when it is done on the
side. -/
lemma Drafting.aside_error {work : Drafting ν Unit} {units : List WorkUnit} {e : CompileError}
    (h : work { d with units := #[] } = .error e (Draft.append { d with units := #[] } units)) :
    aside work d = .error e d := by
  rw [aside, h]
  simp [Draft.append]

end

/-! ### Texts that fail -/

/-- Compiling a text stops in front of `bad`. What the statements before it leave on their own is
what is left, and if `bad` opens with a statement, the error is the one of that statement. -/
structure StopsAt (text : List Char) (d : Draft ν) (statements : List Statement) (bad : List Char)
    (units : List WorkUnit) (culprit : Culprit) (e : CompileError) : Prop where
  passes : Passes text statements bad
  compiled : builtin.compileBlock (statements.flatMap (·.text)) d = .ok () (d.append units)
  failed : builtin.compileBlock text d = .error e (d.append units)
  fault : Fault (d.append units).units.size bad culprit e
  head : ∀ s rest, Opens bad s rest →
    builtin.compileBlock s.text (d.append units) = .error e (d.append units)

/-- A text adds its work units, or stops somewhere. -/
def CompilesOrStops (text : List Char) (d : Draft ν) : Prop :=
  (∃ units, builtin.compileBlock text d = .ok () (d.append units)) ∨
    ∃ statements bad units culprit e, StopsAt text d statements bad units culprit e

section

variable {text rest : List Char} {s : Statement} {d : Draft ν}

/-- A statement adds its work units, or it is at fault and leaves nothing. -/
lemma Opens.compiles_or_fails (h : Opens text s rest)
    (hbody : ∀ body, s.body = some body → ∀ d : Draft ν, CompilesOrStops body d) (d : Draft ν) :
    (∃ units, builtin.compileBlock s.text d = .ok () (d.append units)) ∨
      ∃ culprit e, Fault d.units.size text culprit e ∧
        builtin.compileBlock s.text d = .error e d := by
  obtain ⟨command, -, ⟨verb, hs, -⟩ | ⟨body, semicolon, hs, -⟩⟩ := h.exists_starts (ν := ν)
  · rw [hs] at h ⊢
    rw [Verb.compileBlock_statement h]
    cases hunit : verb.unit (verb.statement s.args) with
    | error e => exact .inr ⟨_, e, .simple h hunit, rfl⟩
    | ok unit => exact .inl ⟨[unit], rfl⟩
  · generalize s.args = args at hs
    subst hs
    rw [compileBlock_blockOf h]
    cases htimes : timesOf (blockOf args body semicolon) with
    | error e => exact .inr ⟨_, e, .times h htimes, rfl⟩
    | ok times =>
      obtain ⟨units, hunits⟩ | ⟨statements, bad, units, culprit, e, hstops⟩ :=
        hbody body rfl { d with units := #[] }
      · obtain ⟨t, inner, hderives, hmeans, hinner⟩ :=
          Registry.exists_derives_of_compileBlock hunits
        have heq : units = inner := by simpa [Draft.append] using hinner
        subst heq
        rw [Drafting.aside_append hunits]
        by_cases hbound : units.toArray.size * times + d.units.size > maxWorkUnits
        · refine .inr ⟨_, _, .bound h htimes hderives hmeans ?_, if_pos hbound⟩
          rw [List.size_toArray, Nat.mul_comm, Nat.add_comm] at hbound
          exact hbound
        · exact .inl ⟨_, if_neg hbound⟩
      · obtain ⟨t, inner, hderives, hmeans, hinner⟩ :=
          Registry.exists_derives_of_compileBlock hstops.compiled
        have heq : units = inner := by simpa [Draft.append] using hinner
        subst heq
        rw [Drafting.aside_error hstops.failed]
        refine .inr ⟨culprit, e, .body h htimes hstops.passes hderives hmeans ?_, rfl⟩
        simpa [Draft.append] using hstops.fault

/-- What comes of the rest comes of the text, if its first statement adds its work units. -/
lemma CompilesOrStops.cons {units : List WorkUnit} (h : Opens text s rest)
    (hunits : builtin.compileBlock s.text d = .ok () (d.append units))
    (hrest : CompilesOrStops rest (d.append units)) : CompilesOrStops text d := by
  have htext : builtin.compileBlock text d = builtin.compileBlock rest (d.append units) := by
    rw [h.compileBlock_eq]
    exact Drafting.bind_of_ok hunits
  obtain ⟨more, hmore⟩ | ⟨statements, bad, more, culprit, e, hstops⟩ := hrest
  · exact .inl ⟨units ++ more, by rw [htext, hmore, Draft.append_append]⟩
  · refine .inr ⟨s :: statements, bad, units ++ more, culprit, e, .cons h hstops.passes, ?_, ?_, ?_,
      ?_⟩
    · rw [List.flatMap_cons, (h.before hstops.passes).compileBlock_eq, ← Draft.append_append]
      exact (Drafting.bind_of_ok hunits).trans hstops.compiled
    · rw [htext, hstops.failed, Draft.append_append]
    · simpa using hstops.fault
    · simpa using hstops.head

/-- A text that compiling cannot get into stops it at once. -/
lemma StopsAt.start {culprit : Culprit} {e : CompileError}
    (hfailed : builtin.compileBlock text d = .error e d)
    (hfault : Fault d.units.size text culprit e)
    (hhead : ∀ s rest, Opens text s rest → builtin.compileBlock s.text d = .error e d) :
    StopsAt text d [] text [] culprit e where
  passes := .nil
  compiled := by simp
  failed := by simpa using hfailed
  fault := by simpa using hfault
  head := by simpa using hhead

lemma compilesOrStops (text : List Char) (d : Draft ν) : CompilesOrStops text d := by
  -- The body of a block and the rest of the text are both shorter than the text.
  induction hlength : text.length using Nat.strong_induction_on generalizing text d with
  | _ n ih =>
    subst hlength
    by_cases hne : text = []
    · subst hne
      exact .inl ⟨[], by simp⟩
    cases hlocate : locate (builtin : Registry ν).find? Command.form text with
    | error e =>
      have hfailed : builtin.compileBlock text d = .error e d := by
        rw [Registry.compileBlock_of_locate_error hne hlocate]
        rfl
      refine .inr ⟨_, _, _, _, _, .start hfailed (.noStatement hne (.of_locate hlocate)) ?_⟩
      intro s rest hopens
      obtain ⟨_, hstarts, -⟩ := hopens.exists_starts (ν := ν)
      obtain ⟨found, hfound, -⟩ := hstarts.exists_locate
      rw [hfound] at hlocate
      cases hlocate
    | ok found =>
      have hopens : Opens text found.statement found.rest := .of_starts (.of_locate hlocate)
      have hbody : ∀ body, found.statement.body = some body →
          ∀ d : Draft ν, CompilesOrStops body d :=
        fun body hbody d => ih _ (hopens.body_lt hbody) body d rfl
      obtain ⟨units, hunits⟩ | ⟨culprit, e, hfault, herror⟩ := hopens.compiles_or_fails hbody d
      · exact .cons hopens hunits (ih _ hopens.rest_lt _ _ rfl)
      · have hfailed : builtin.compileBlock text d = .error e d := by
          rw [hopens.compileBlock_eq]
          exact Drafting.bind_of_error herror
        refine .inr ⟨_, _, _, _, _, .start hfailed hfault ?_⟩
        intro s rest hopens'
        obtain ⟨rfl, -⟩ := hopens.unique hopens'
        exact herror

/-- The rules are exact: a text gives the error that they say, and nothing is left of it. -/
lemma Fault.compileBlock_eq {culprit : Culprit} {e : CompileError}
    (h : Fault d.units.size text culprit e) : builtin.compileBlock text d = .error e d := by
  generalize hbefore : d.units.size = before at h
  induction h generalizing d with
  | noStatement hne h =>
    rw [Registry.compileBlock_of_locate_error hne (locate_eq_error.2 h)]
    rfl
  | simple hopens h =>
    rw [hopens.compileBlock_eq]
    apply Drafting.bind_of_error
    rw [Verb.compileBlock_statement hopens, h]
  | times hopens h =>
    rw [hopens.compileBlock_eq]
    apply Drafting.bind_of_error
    rw [compileBlock_blockOf hopens, h]
  | @body _ _ _ body _ _ _ _ _ _ units _ e hopens htimes hpasses hderives hmeans _ ih =>
    rw [hopens.compileBlock_eq]
    apply Drafting.bind_of_error
    have hcompiled := hderives.compileBlock_eq_ok (d := { d with units := #[] }) hmeans
    have hfailed : builtin.compileBlock body { d with units := #[] } =
        .error e (Draft.append { d with units := #[] } units) := by
      rw [hpasses.compileBlock_eq]
      refine (Drafting.bind_of_ok hcompiled).trans (ih ?_)
      simp [Draft.append]
    rw [compileBlock_blockOf hopens, htimes]
    simp only
    rw [Drafting.aside_error hfailed]
  | @bound _ times _ body _ _ _ _ units hopens htimes hderives hmeans h =>
    rw [hopens.compileBlock_eq]
    apply Drafting.bind_of_error
    have hcompiled : builtin.compileBlock body { d with units := #[] } =
        .ok () (Draft.append { d with units := #[] } units) := hderives.compileBlock_eq_ok hmeans
    have hbound : units.toArray.size * times + d.units.size > maxWorkUnits := by
      rw [List.size_toArray, Nat.mul_comm, Nat.add_comm, hbefore]
      exact h
    rw [compileBlock_blockOf hopens, htimes]
    simp only
    rw [Drafting.aside_append hcompiled]
    exact if_pos hbound

end

/-- Compiling a text only adds work units, also if it fails. If it does, the text is a row of whole
statements and a rest: the statements are compiled as they are on their own, the error is the only
one that the beginning of the rest may give, and whatever it quotes stands in the text. A parameter
that is missing or wrong is one of the innermost statement at fault, which is quoted in full. -/
theorem Registry.compileBlock_appends_or_stops (text : List Char) (d : Draft ν) :
    (∃ units, (builtin : Registry ν).compileBlock text d = .ok () (d.append units)) ∨
      ∃ statements bad units culprit e, StopsAt text d statements bad units culprit e ∧
        statements.flatMap (·.text) ++ bad = text ∧
        (∀ culprit' e', Fault (d.append units).units.size bad culprit' e' → e' = e) ∧
        (∀ q, e.statement? = some q → q.toList <:+: text) ∧
        ∀ q, e.parameterStatement? = some q →
          ∃ s, culprit = .statement s ∧ q = String.ofList s.text := by
  obtain hok | ⟨statements, bad, units, culprit, e, hstops⟩ := compilesOrStops text d
  · exact .inl hok
  refine .inr ⟨statements, bad, units, culprit, e, hstops, hstops.passes.text_append, ?_, ?_, ?_⟩
  · intro culprit' e' hfault
    have heq := hstops.fault.compileBlock_eq.symm.trans hfault.compileBlock_eq
    cases heq
    rfl
  · intro q hq
    have hbad : bad <:+: text := by
      rw [← hstops.passes.text_append]
      exact (List.suffix_append _ _).isInfix
    exact (hstops.fault.isInfix hq).trans hbad
  · intro q hq
    exact hstops.fault.parameterStatement?_eq hq

/-- The block is too long, but its body fails before that shows. -/
example :
    (builtin : Registry Empty).compile ("Delay(seconds:1); Repeat(times:4000000)\x7b " ++
        "Delay(seconds:2); CreateUsersOverTime(amount:0);\x7d; Delay(seconds:3);") =
      .error (.zeroAmount "createusersovertime(amount:0);") := by
  decide +kernel

end LoadTest
