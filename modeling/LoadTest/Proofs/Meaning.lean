import LoadTest.Proofs.Drafting
import LoadTest.Proofs.Grammar
import LoadTest.Scenario.Builtin

/-!
# The meaning of scenarios

What the statements of a derivation mean is said by rules, from the texts of their arguments alone.
A scenario text compiles to some work units exactly if they are the meaning of its derivation.
-/

namespace LoadTest

variable {ν : Type}

/-! ### Rules -/

/-- The lifecycle of created users. Cycled ones take a number of cycles. -/
inductive LifecycleOf (args : List Char) : Mode → Lifecycle → Prop
  | regular : LifecycleOf args .regular .regular
  | looped : LifecycleOf args .looped .looped
  | cycled {cycles : Nat} (hcycles : Reads args "cyclestorun" 32 cycles) :
      LifecycleOf args .cycled (.cycled (UInt32.ofNat cycles))

/-- The time that a change takes. A timed one needs someone to be spread. -/
inductive SpanOf (args : List Char) (amount : Nat) : (timed : Bool) → Option Millis → Prop
  | atOnce : SpanOf args amount false none
  | timed {span : Millis} (hamount : 1 ≤ amount) (hspan : Lasts args span) :
      SpanOf args amount true (some span)

/-- The work unit of a simple statement. -/
inductive Verb.Means (args : List Char) : Verb → WorkUnit → Prop
  | create {mode : Mode} {timed : Bool} {amount : Nat} {lifecycle : Lifecycle}
      {span : Option Millis} (hnamed : AllNamed args) (hamount : Reads args "amount" 64 amount)
      (hlifecycle : LifecycleOf args mode lifecycle) (hspan : SpanOf args amount timed span) :
      Means args (.create mode timed) (.create amount lifecycle span)
  | remove {mode : Mode} {goesOn : mode ≠ .regular} {timed : Bool} {amount : Nat}
      {span : Option Millis} (hnamed : AllNamed args) (hamount : Reads args "amount" 64 amount)
      (hspan : SpanOf args amount timed span) :
      Means args (.remove mode goesOn timed) (.remove amount mode span)
  | delay {duration : Millis} (hnamed : AllNamed args) (hduration : Lasts args duration) :
      Means args .delay (.delay duration)
  | waitForAll : Means args .waitForAll .waitForAll

/-- The work units of a scenario that has `before` work units in front of it. A block stands for as
many copies of its body as it says, if they do not bring the scenario past a million. -/
inductive Derivation.Means : (before : Nat) → Derivation → List WorkUnit → Prop
  | nil {before : Nat} : Means before .nil []
  | simple {before : Nat} {verb : Verb} {args : List Char} {rest : Derivation} {unit : WorkUnit}
      {units : List WorkUnit} (hunit : verb.Means args unit)
      (hrest : Means (before + 1) rest units) :
      Means before (.simple verb args rest) (unit :: units)
  | block {before times : Nat} {args : List Char} {body rest : Derivation} {semicolon : Bool}
      {inner units : List WorkUnit} (hnamed : AllNamed args)
      (htimes : Reads args "times" 32 times) (hbody : Means 0 body inner)
      (hbound : before + times * inner.length ≤ 1000000)
      (hrest : Means (before + times * inner.length) rest units) :
      Means before (.block args body semicolon rest)
        ((List.replicate times inner).flatten ++ units)

/-! ### Simple statements -/

lemma lifecycleOf_eq_ok {s : Statement} {p : Params} (h : Params.ofStatement s = .ok p)
    {mode : Mode} {lifecycle : Lifecycle} :
    lifecycleOf p mode = .ok lifecycle ↔ LifecycleOf s.args mode lifecycle := by
  cases mode with
  | regular =>
    constructor
    · intro h
      cases h
      exact .regular
    · rintro ⟨⟩
      rfl
  | looped =>
    constructor
    · intro h
      cases h
      exact .looped
    · rintro ⟨⟩
      rfl
  | cycled =>
    have hname : ':' ∉ "cyclestorun".toList := by decide
    simp only [lifecycleOf, bind_eq_ok, pure_eq_ok, Params.required_readNat h hname]
    constructor
    · rintro ⟨cycles, hcycles, rfl⟩
      exact .cycled hcycles
    · rintro (_ | _ | hcycles)
      exact ⟨_, hcycles, rfl⟩

lemma spanOf_eq_ok {s : Statement} {p : Params} (h : Params.ofStatement s = .ok p) {amount : Nat}
    {timed : Bool} {span : Option Millis} :
    spanOf p amount timed = .ok span ↔ SpanOf s.args amount timed span := by
  cases timed with
  | false =>
    simp only [spanOf, Bool.false_eq_true, if_false, pure_eq_ok]
    constructor
    · rintro rfl
      exact .atOnce
    · rintro ⟨⟩
      rfl
  | true =>
    simp only [spanOf, if_true, map_eq_ok, spread]
    constructor
    · rintro ⟨d, hd, rfl⟩
      split_ifs at hd with hzero
      exact .timed (by omega) ((Params.duration_eq_ok h).1 hd)
    · rintro (_ | ⟨hamount, hspan⟩)
      exact ⟨_, by rw [if_neg (by omega)]; exact (Params.duration_eq_ok h).2 hspan, rfl⟩

namespace Verb

/-- What the built-in command of a verb makes of a statement. -/
def unit : Verb → Statement → Except CompileError WorkUnit
  | .create mode timed => createUnit mode timed
  | .remove mode _ timed => removeUnit mode timed
  | .delay => delayUnit
  | .waitForAll => fun _ => .ok .waitForAll

/-- A verb makes its meaning of a statement, and nothing of a statement without one. -/
lemma unit_eq_ok {verb : Verb} {s : Statement} {u : WorkUnit} :
    verb.unit s = .ok u ↔ verb.Means s.args u := by
  have hparams : ∀ {p}, Params.ofStatement s = .ok p → AllNamed s.args := fun h =>
    Params.exists_ofStatement.1 ⟨_, h⟩
  cases verb with
  | create mode timed =>
    simp only [unit, createUnit, bind_eq_ok, pure_eq_ok]
    constructor
    · rintro ⟨p, hp, amount, hamount, lifecycle, hlifecycle, span, hspan, rfl⟩
      exact .create (hparams hp) ((Params.required_readNat hp (by decide)).1 hamount)
        ((lifecycleOf_eq_ok hp).1 hlifecycle) ((spanOf_eq_ok hp).1 hspan)
    · rintro ⟨hnamed, hamount, hlifecycle, hspan⟩
      obtain ⟨p, hp⟩ := Params.exists_ofStatement.2 hnamed
      exact ⟨p, hp, _, (Params.required_readNat hp (by decide)).2 hamount,
        _, (lifecycleOf_eq_ok hp).2 hlifecycle, _, (spanOf_eq_ok hp).2 hspan, rfl⟩
  | remove mode goesOn timed =>
    simp only [unit, removeUnit, bind_eq_ok, pure_eq_ok]
    constructor
    · rintro ⟨p, hp, amount, hamount, span, hspan, rfl⟩
      exact .remove (hparams hp) ((Params.required_readNat hp (by decide)).1 hamount)
        ((spanOf_eq_ok hp).1 hspan)
    · rintro (_ | ⟨hnamed, hamount, hspan⟩)
      obtain ⟨p, hp⟩ := Params.exists_ofStatement.2 hnamed
      exact ⟨p, hp, _, (Params.required_readNat hp (by decide)).2 hamount,
        _, (spanOf_eq_ok hp).2 hspan, rfl⟩
  | delay =>
    simp only [unit, delayUnit, bind_eq_ok, pure_eq_ok]
    constructor
    · rintro ⟨p, hp, d, hd, rfl⟩
      exact .delay (hparams hp) ((Params.duration_eq_ok hp).1 hd)
    · rintro (_ | _ | ⟨hnamed, hd⟩)
      obtain ⟨p, hp⟩ := Params.exists_ofStatement.2 hnamed
      exact ⟨p, hp, _, (Params.duration_eq_ok hp).2 hd, rfl⟩
  | waitForAll =>
    constructor
    · intro h
      cases h
      exact .waitForAll
    · rintro ⟨⟩
      rfl

lemma find?_keyword (verb : Verb) :
    (builtin : Registry ν).find? verb.keyword = some (.unit verb.unit) := by
  rcases verb with ⟨mode, timed⟩ | ⟨mode, goesOn, timed⟩ | _ | _
  · cases mode <;> cases timed <;> rfl
  · cases mode
    · exact absurd rfl goesOn
    all_goals cases timed <;> rfl
  · rfl
  · rfl

end Verb

lemma find?_repeatKeyword : (builtin : Registry ν).find? repeatKeyword = some .repeated := rfl

/-- A built-in command is that of a verb, or the repetition. -/
lemma eq_of_find?_builtin {keyword : List Char} {command : Command ν}
    (h : builtin.find? keyword = some command) :
    (∃ verb : Verb, keyword = verb.keyword ∧ command = .unit verb.unit) ∨
      keyword = repeatKeyword ∧ command = .repeated := by
  obtain ⟨before, after, hcommands, -⟩ := List.lookup_eq_some_iff.1 h
  have hmem : (keyword, command) ∈ (builtin : Registry ν).commands := by simp [hcommands]
  simp only [builtin, List.mem_cons, Prod.mk.injEq, List.not_mem_nil, or_false] at hmem
  rcases hmem with h | h | h | h | h | h | h | h | h | h | h | h | h
  · exact .inl ⟨.create .regular false, h⟩
  · exact .inl ⟨.create .regular true, h⟩
  · exact .inl ⟨.create .cycled false, h⟩
  · exact .inl ⟨.create .cycled true, h⟩
  · exact .inl ⟨.remove .cycled (by decide) false, h⟩
  · exact .inl ⟨.remove .cycled (by decide) true, h⟩
  · exact .inl ⟨.create .looped false, h⟩
  · exact .inl ⟨.create .looped true, h⟩
  · exact .inl ⟨.remove .looped (by decide) false, h⟩
  · exact .inl ⟨.remove .looped (by decide) true, h⟩
  · exact .inl ⟨.delay, h⟩
  · exact .inr h
  · exact .inl ⟨.waitForAll, h⟩

/-! ### Repetitions -/

lemma Command.handler_unit_eq_ok {meaning : Statement → Except CompileError WorkUnit}
    {s : Statement} {body : Option (Drafting ν Unit)} {d d' : Draft ν} {unit : Option WorkUnit} :
    (Command.unit meaning).handler s body d = .ok unit d' ↔
      ∃ u, meaning s = .ok u ∧ unit = some u ∧ d' = d := by
  simp only [Command.unit, Drafting.map_eq_ok, Drafting.ofExcept_eq_ok]
  constructor
  · rintro ⟨u, ⟨hu, rfl⟩, rfl⟩
    exact ⟨u, hu, rfl, rfl⟩
  · rintro ⟨u, hu, rfl, rfl⟩
    exact ⟨u, ⟨hu, rfl⟩, rfl⟩

/-- A repetition compiles its body on the side and appends it as often as it says, within the
bound. -/
lemma Command.handler_repeated_eq_ok {s : Statement} {work : Drafting ν Unit} {d d' : Draft ν}
    {unit : Option WorkUnit} :
    Command.repeated.handler s (some work) d = .ok unit d' ↔
      unit = none ∧ AllNamed s.args ∧ ∃ times units d₁, Reads s.args "times" 32 times ∧
        Drafting.aside work d = .ok units d₁ ∧
        units.size * times + d₁.units.size ≤ maxWorkUnits ∧
        d' = d₁.append (List.replicate times units.toList).flatten := by
  have hname : ':' ∉ "times".toList := by decide
  have hreads : ∀ {p times}, Params.ofStatement s = .ok p →
      (p.required "times" (Text.readNat 32) = .ok times ↔ Reads s.args "times" 32 times) :=
    fun hp => Params.required_readNat hp hname
  simp only [Command.repeated, Drafting.bind_eq_ok, Drafting.ofExcept_eq_ok]
  constructor
  · rintro ⟨p, _, ⟨hp, rfl⟩, times, _, ⟨htimes, rfl⟩, units, d₁, haside, n, _, hcount, h⟩
    obtain ⟨rfl, rfl⟩ := Drafting.count_eq_ok.1 hcount
    have hnamed : AllNamed s.args := Params.exists_ofStatement.1 ⟨p, hp⟩
    by_cases hbound : units.size * times + d₁.units.size > maxWorkUnits
    · rw [if_pos hbound] at h
      obtain ⟨_, _, hthrow, -⟩ := Drafting.bind_eq_ok.1 h
      exact absurd hthrow Drafting.throw_ne_ok
    rw [if_neg hbound] at h
    split_ifs at h with hempty
    · have hnone : units.toList = [] := by simpa using hempty
      obtain ⟨rfl, rfl⟩ := Drafting.pure_eq_ok.1 h
      exact ⟨rfl, hnamed, times, units, d₁, (hreads hp).1 htimes, haside, by omega,
        by simp [hnone]⟩
    · obtain ⟨_, d₂, hemit, h⟩ := Drafting.bind_eq_ok.1 h
      obtain ⟨rfl, rfl⟩ := Drafting.pure_eq_ok.1 h
      rw [Drafting.emitTimes_eq] at hemit
      cases hemit
      exact ⟨rfl, hnamed, times, units, d₁, (hreads hp).1 htimes, haside, by omega, rfl⟩
  · rintro ⟨rfl, hnamed, times, units, d₁, htimes, haside, hbound, rfl⟩
    obtain ⟨p, hp⟩ := Params.exists_ofStatement.2 hnamed
    refine ⟨p, d, ⟨hp, rfl⟩, times, d, ⟨(hreads hp).2 htimes, rfl⟩, units, d₁, haside,
      d₁.units.size, d₁, Drafting.count_eq_ok.2 ⟨rfl, rfl⟩, ?_⟩
    rw [if_neg (by omega)]
    split_ifs with hempty
    · have hnone : units.toList = [] := by simpa using hempty
      exact Drafting.pure_eq_ok.2 ⟨rfl, by simp [hnone]⟩
    · exact Drafting.bind_eq_ok.2 ⟨(), _, Drafting.emitTimes_eq _ _ _,
        Drafting.pure_eq_ok.2 ⟨rfl, rfl⟩⟩

/-! ### Scenarios -/

/-- With the built-in commands a text starts with a simple statement of a verb, or with a block of
the repetition. -/
lemma Starts.of_builtin {text rest : List Char} {command : Command ν} {s : Statement}
    (h : Starts builtin.find? Command.form text command s rest) :
    ')' ∉ s.args ∧
      ((∃ verb : Verb, text = verb.keyword ++ '(' :: s.args ++ [')'] ++ ';' :: rest ∧
          command = .unit verb.unit) ∨
        ∃ body semicolon, Balanced body ∧ s.body = some body ∧ command = .repeated ∧
          text = repeatKeyword ++ '(' :: s.args ++ [')'] ++
            '\x7b' :: (body ++ '\x7d' :: (blockEnd semicolon ++ rest))) := by
  cases h with
  | simple hkeyword hfind hform hargs =>
    obtain ⟨verb, rfl, rfl⟩ | ⟨-, rfl⟩ := eq_of_find?_builtin hfind
    · exact ⟨hargs, .inl ⟨verb, rfl, rfl⟩⟩
    · cases hform
  | @block _ _ body _ _ hkeyword hfind hform hargs hbody =>
    obtain ⟨verb, -, rfl⟩ | ⟨rfl, rfl⟩ := eq_of_find?_builtin hfind
    · cases hform
    · exact ⟨hargs, .inr ⟨body, false, hbody, rfl, rfl, rfl⟩⟩
  | @blockSemicolon _ _ body _ _ hkeyword hfind hform hargs hbody =>
    obtain ⟨verb, -, rfl⟩ | ⟨rfl, rfl⟩ := eq_of_find?_builtin hfind
    · cases hform
    · exact ⟨hargs, .inr ⟨body, true, hbody, rfl, rfl, rfl⟩⟩

/-- A block of the grammar is found, whether it has a semicolon after it or not. -/
lemma Starts.repeated {args body rest : List Char} {semicolon : Bool} (hargs : ')' ∉ args)
    (hbody : Balanced body) (hrest : rest.head? ≠ some ';') :
    ∃ s, s.args = args ∧ s.body = some body ∧
      Starts builtin.find? (@Command.form ν) (repeatKeyword ++ '(' :: args ++ [')'] ++
        '\x7b' :: (body ++ '\x7d' :: (blockEnd semicolon ++ rest))) .repeated s rest := by
  cases semicolon with
  | false =>
    exact ⟨_, rfl, rfl, .block not_mem_repeatKeyword find?_repeatKeyword rfl hargs hbody hrest⟩
  | true =>
    exact ⟨_, rfl, rfl, .blockSemicolon not_mem_repeatKeyword find?_repeatKeyword rfl hargs hbody⟩

/-- Soundness: whatever compiles has a derivation, and the work units are what it means. -/
lemma Registry.exists_derives_of_compileBlock {text : List Char} {d d' : Draft ν}
    (h : builtin.compileBlock text d = .ok () d') :
    ∃ t units, Derives text t ∧ t.Means d.units.size units ∧ d' = d.append units := by
  -- The body of a block and the rest of the text are both shorter than the text.
  induction hlength : text.length using Nat.strong_induction_on generalizing text d d' with
  | _ n ih =>
    by_cases hne : text = []
    · subst hne
      rw [Registry.compileBlock_nil] at h
      cases h
      exact ⟨.nil, [], .nil, .nil, by simp⟩
    obtain ⟨command, s, rest, hstarts, unit, d₁, hhandler, hrest⟩ :=
      (Registry.compileBlock_eq_ok hne).1 h
    obtain ⟨hargs, ⟨verb, rfl, rfl⟩ | ⟨body, semicolon, hbalanced, hbody, rfl, rfl⟩⟩ :=
      hstarts.of_builtin
    · obtain ⟨u, hu, rfl, rfl⟩ := Command.handler_unit_eq_ok.1 hhandler
      have hlt : rest.length < n := by
        simp only [← hlength, List.length_append, List.length_cons]
        omega
      obtain ⟨t, units, ht, hmeans, rfl⟩ := ih _ hlt hrest rfl
      rw [Draft.size_append] at hmeans
      exact ⟨_, _, .simple hargs ht, .simple (Verb.unit_eq_ok.1 hu) hmeans, by simp⟩
    · rw [hbody] at hhandler
      obtain ⟨rfl, hnamed, times, inner, d₂, htimes, haside, hbound, rfl⟩ :=
        Command.handler_repeated_eq_ok.1 hhandler
      obtain ⟨d₃, hwork, -, -⟩ := Drafting.aside_eq_ok.1 haside
      have hltbody : body.length < n := by
        simp only [← hlength, List.length_append, List.length_cons]
        omega
      have hltrest : rest.length < n := by
        simp only [← hlength, List.length_append, List.length_cons]
        omega
      obtain ⟨b, us, hb, hmeansbody, rfl⟩ := ih _ hltbody hwork rfl
      rw [Drafting.aside_append hwork] at haside
      cases haside
      obtain ⟨t, units, ht, hmeans, rfl⟩ := ih _ hltrest hrest rfl
      have hbound' : d.units.size + times * us.length ≤ 1000000 := by
        rw [List.size_toArray, Nat.mul_comm, Nat.add_comm] at hbound
        exact hbound
      exact ⟨_, _, .block hargs hbalanced hb ht,
        .block hnamed htimes hmeansbody hbound' (by simpa using hmeans), by simp⟩

/-- Completeness: a text with a derivation compiles to what the derivation means. -/
lemma Derives.compileBlock_eq_ok {text : List Char} {t : Derivation} (ht : Derives text t)
    {d : Draft ν} {units : List WorkUnit} (hmeans : t.Means d.units.size units) :
    builtin.compileBlock text d = .ok () (d.append units) := by
  induction ht generalizing d units with
  | nil =>
    cases hmeans
    rw [Registry.compileBlock_nil, Draft.append_nil]
  | @simple verb args rest t hargs _ ih =>
    cases hmeans with
    | @simple _ _ _ _ u us hunit hrest =>
      have hstarts : Starts builtin.find? (@Command.form ν) _ _ _ rest :=
        .simple verb.not_mem_keyword verb.find?_keyword rfl hargs
      refine (Registry.compileBlock_eq_ok (by simp)).2 ⟨_, _, rest, hstarts, some u, d,
        Command.handler_unit_eq_ok.2 ⟨u, Verb.unit_eq_ok.2 hunit, rfl, rfl⟩, ?_⟩
      rw [Option.toList_some, ih (by simpa using hrest), Draft.append_append,
        List.singleton_append]
  | @block args body rest b t semicolon hargs hbalanced hbody hrest ihbody ihrest =>
    cases hmeans with
    | @block _ times _ _ _ _ inner us hnamed htimes hmeansbody hbound hmeansrest =>
      obtain ⟨s, rfl, hs, hstarts⟩ :=
        @Starts.repeated ν args body rest semicolon hargs hbalanced hrest.head?_ne
      have haside : Drafting.aside (builtin.compileBlock body) d = .ok inner.toArray d :=
        Drafting.aside_append (ihbody hmeansbody)
      have hbound' : inner.toArray.size * times + d.units.size ≤ maxWorkUnits := by
        rw [List.size_toArray, Nat.mul_comm, Nat.add_comm]
        exact hbound
      refine (Registry.compileBlock_eq_ok (by simp)).2 ⟨_, _, rest, hstarts, none,
        d.append (List.replicate times inner).flatten, ?_, ?_⟩
      · rw [hs]
        exact Command.handler_repeated_eq_ok.2
          ⟨rfl, hnamed, times, _, d, htimes, haside, hbound', rfl⟩
      · rw [Option.toList_none, Draft.append_nil, ihrest (by simpa using hmeansrest),
          Draft.append_append]

/-- A scenario text compiles to some work units exactly if its normal form has a derivation that
means them, and no text has more than one derivation. -/
theorem Registry.compile_eq_ok_iff_means (text : String) (units : List WorkUnit) :
    ((builtin : Registry ν).compile text = .ok units.toArray ↔
      ∃ s t, normalize text = .ok s ∧ Derives s t ∧ t.Means 0 units) ∧
    ∀ s t t', Derives s t → Derives s t' → t = t' := by
  refine ⟨?_, fun s t t' ht ht' => ht.unique ht'⟩
  rw [Registry.compile, Registry.draft]
  cases hnormal : normalize text with
  | error e => simp
  | ok s =>
    constructor
    · intro h
      cases hcompiled : (builtin : Registry ν).compileBlock s {} with
      | error e d => simp [hcompiled] at h
      | ok _ d =>
        obtain ⟨t, us, ht, hmeans, rfl⟩ := Registry.exists_derives_of_compileBlock hcompiled
        have hunits : us = units := by simpa [hcompiled, Draft.append] using h
        exact ⟨s, t, rfl, ht, hunits ▸ hmeans⟩
    · rintro ⟨s', t, hs, ht, hmeans⟩
      cases hs
      simp [ht.compileBlock_eq_ok (d := ({} : Draft ν)) hmeans, Draft.append]

end LoadTest
