import LoadTest.Proofs.Faults
import Mathlib.Data.List.Find
import Mathlib.Logic.Relation

/-!
# Arguments that come to the same

A built-in command sees two things of its arguments: whether every item has a name, and the first
values of the names that it reads. Two statements that agree on these have the same outcome, but for
the statement that an error quotes. So it does not matter in which order parameters of different
names stand, nor which empty items, unknown names and later duplicates stand among them.
-/

namespace LoadTest

open Text

variable {ν α β : Type}

/-! ### What a command reads -/

/-- The names that a created lifecycle takes. -/
def Mode.names : Mode → List String
  | .regular | .looped => []
  | .cycled => ["cyclestorun"]

/-- The names that the time of a change takes. -/
def spanNames (timed : Bool) : List String := if timed then ["hours", "minutes", "seconds"] else []

def Verb.names : Verb → List String
  | .create mode timed => "amount" :: (mode.names ++ spanNames timed)
  | .remove _ _ timed => "amount" :: spanNames timed
  | .delay => spanNames true
  | .waitForAll => []

/-- The names that the built-in command of a keyword reads. -/
def namesRead (keyword : List Char) : List String :=
  match Verb.all.find? (·.keyword = keyword) with
  | some verb => verb.names
  | none => ["times"]

/-- Two argument texts agree on what a command sees of them. -/
structure Agree (names : List String) (args args' : List Char) : Prop where
  named : AllNamed args ↔ AllNamed args'
  binds : ∀ name ∈ names, ∀ value, Binds args name value ↔ Binds args' name value

/-! ### Outcomes -/

/-- The error with another statement quoted in it. -/
def CompileError.quoting (statement : String) : CompileError → CompileError
  | .unknownCommand keyword _ => .unknownCommand keyword statement
  | .missingParameter _ parameter => .missingParameter statement parameter
  | .invalidParameter _ parameter value => .invalidParameter statement parameter value
  | .zeroAmount _ => .zeroAmount statement
  | .malformed _ reason => .malformed statement reason
  | .unterminatedComment => .unterminatedComment
  | .duplicateCommand keyword => .duplicateCommand keyword

/-- The same value, or the same error with either statement quoted in its own. -/
inductive SameResult (quoted quoted' : String) :
    Except CompileError α → Except CompileError α → Prop
  | ok (a : α) : SameResult quoted quoted' (.ok a) (.ok a)
  | error {e : CompileError} (h : e.statement? = some quoted) :
      SameResult quoted quoted' (.error e) (.error (e.quoting quoted'))

/-- The same outcome of a part of the compilation. An error that is not one of the two statements is
the same altogether. -/
inductive SameOutcome (quoted quoted' : String) :
    EStateM.Result CompileError (Draft ν) α → EStateM.Result CompileError (Draft ν) α → Prop
  | same (outcome : EStateM.Result CompileError (Draft ν) α) :
      SameOutcome quoted quoted' outcome outcome
  | error {e : CompileError} (h : e.statement? = some quoted) (d : Draft ν) :
      SameOutcome quoted quoted' (.error e d) (.error (e.quoting quoted') d)

section

variable {quoted quoted' : String}

lemma SameResult.bind {x x' : Except CompileError α} {f f' : α → Except CompileError β}
    (hx : SameResult quoted quoted' x x') (hf : ∀ a, SameResult quoted quoted' (f a) (f' a)) :
    SameResult quoted quoted' (x >>= f) (x' >>= f') := by
  cases hx with
  | ok a => exact hf a
  | error h => exact .error h

lemma SameResult.map {x x' : Except CompileError α} (hx : SameResult quoted quoted' x x')
    (f : α → β) : SameResult quoted quoted' (f <$> x) (f <$> x') := by
  cases hx with
  | ok a => exact .ok (f a)
  | error h => exact .error h

lemma SameOutcome.bind {x x' : Drafting ν α} {f f' : α → Drafting ν β} {d : Draft ν}
    (hx : SameOutcome quoted quoted' (x d) (x' d))
    (hf : ∀ a d, SameOutcome quoted quoted' (f a d) (f' a d)) :
    SameOutcome quoted quoted' ((x >>= f) d) ((x' >>= f') d) := by
  generalize hr : x d = r, hr' : x' d = r' at hx
  cases hx with
  | same =>
    cases r with
    | ok a d₁ =>
      rw [Drafting.bind_of_ok hr, Drafting.bind_of_ok hr']
      exact hf a d₁
    | error e d₁ =>
      rw [Drafting.bind_of_error hr, Drafting.bind_of_error hr']
      exact .same _
  | error h d₁ =>
    rw [Drafting.bind_of_error hr, Drafting.bind_of_error hr']
    exact .error h d₁

lemma SameResult.outcome {x x' : Except CompileError α} (hx : SameResult quoted quoted' x x')
    (d : Draft ν) :
    SameOutcome quoted quoted' (Drafting.ofExcept x d) (Drafting.ofExcept x' d) := by
  cases hx with
  | ok a => exact .same _
  | error h => exact .error h d

end

/-! ### Parameters -/

namespace Params

/-- The parameters of two statements have the same values for some names. -/
structure Agree (names : List String) (p p' : Params) : Prop where
  value?_eq : ∀ name ∈ names, p.value? name = p'.value? name

/-- Two argument texts that agree are both refused or are read as parameters that agree. -/
lemma ofStatement_agree {names : List String} (hnames : ∀ name ∈ names, ':' ∉ name.toList)
    {s s' : Statement} (h : LoadTest.Agree names s.args s'.args) :
    (∃ p p', ofStatement s = .ok p ∧ ofStatement s' = .ok p' ∧ Agree names p p') ∨
      ofStatement s = .error (s.malformed .unnamedArgument) ∧
        ofStatement s' = .error (s'.malformed .unnamedArgument) := by
  have hrefused : ∀ {s : Statement}, ¬ AllNamed s.args →
      ofStatement s = .error (s.malformed .unnamedArgument) := by
    intro s hnamed
    have hnone := exists_ofStatement.not.2 hnamed
    rw [ofStatement] at hnone ⊢
    split
    next bindings hb => simp [hb] at hnone
    next => rfl
  by_cases hnamed : AllNamed s.args
  · obtain ⟨p, hp⟩ := exists_ofStatement.2 hnamed
    obtain ⟨p', hp'⟩ := exists_ofStatement.2 (h.named.1 hnamed)
    refine .inl ⟨p, p', hp, hp', ⟨fun name hname => Option.ext fun value => ?_⟩⟩
    rw [value?_eq_some hp (hnames name hname), value?_eq_some hp' (hnames name hname)]
    exact h.binds name hname value
  · exact .inr ⟨hrefused hnamed, hrefused (h.named.not.1 hnamed)⟩

namespace Agree

variable {names : List String} {p p' : Params}

lemma mono {more : List String} (h : Agree more p p') (hsubset : names ⊆ more) : Agree names p p' :=
  ⟨fun name hname => h.value?_eq name (hsubset hname)⟩

lemma optional (h : Agree names p p') {name : String} (hname : name ∈ names)
    (read : List Char → Option α) :
    SameResult (String.ofList p.statement) (String.ofList p'.statement) (p.optional name read)
      (p'.optional name read) := by
  rw [Params.optional, Params.optional, ← h.value?_eq name hname]
  cases p.value? name with
  | none => exact .ok none
  | some value =>
    cases hread : read value with
    | none =>
      simp only [hread]
      exact .error (e := p.invalid name (String.ofList value)) rfl
    | some a =>
      simp only [hread]
      exact .ok (some a)

lemma required (h : Agree names p p') {name : String} (hname : name ∈ names)
    (read : List Char → Option α) :
    SameResult (String.ofList p.statement) (String.ofList p'.statement) (p.required name read)
      (p'.required name read) := by
  have hoptional := h.optional hname read
  rw [Params.required, Params.required]
  generalize p.optional name read = x, p'.optional name read = x' at hoptional
  cases hoptional with
  | ok value =>
    cases value with
    | none => exact .error (e := .missingParameter _ name) rfl
    | some a => exact .ok a
  | error he => exact .error he

lemma addUnit (h : Agree names p p') {unit : String × Millis} (hunit : unit.1 ∈ names)
    (total : Millis) :
    SameResult (String.ofList p.statement) (String.ofList p'.statement) (p.addUnit total unit)
      (p'.addUnit total unit) := by
  have hoptional := h.optional hunit (readNat 64)
  rw [Params.addUnit, Params.addUnit]
  generalize p.optional unit.1 (readNat 64) = x, p'.optional unit.1 (readNat 64) = x' at hoptional
  cases hoptional with
  | ok value =>
    cases value with
    | none => exact .ok total
    | some count =>
      simp only
      split
      next sum hsum => exact .ok sum
      next => exact .error (e := p.invalid unit.1 (toString count)) rfl
  | error he => exact .error he

/-- The units of a duration are read in their own order, whatever that of the parameters is. -/
lemma duration (h : Agree (spanNames true) p p') :
    SameResult (String.ofList p.statement) (String.ofList p'.statement) p.duration p'.duration := by
  have hfold : ∀ units : List (String × Millis), (∀ unit ∈ units, unit.1 ∈ spanNames true) →
      ∀ total, SameResult (String.ofList p.statement) (String.ofList p'.statement)
        (units.foldlM p.addUnit total) (units.foldlM p'.addUnit total) := by
    intro units hunits
    induction units with
    | nil => exact fun total => .ok total
    | cons unit units ih =>
      obtain ⟨hunit, hunits⟩ := List.forall_mem_cons.1 hunits
      intro total
      rw [List.foldlM_cons, List.foldlM_cons]
      exact (h.addUnit hunit total).bind fun sum => ih hunits sum
  exact hfold durationUnits (by decide) 0

lemma spanOf {timed : Bool} (h : Agree (spanNames timed) p p') (amount : Nat) :
    SameResult (String.ofList p.statement) (String.ofList p'.statement) (spanOf p amount timed)
      (spanOf p' amount timed) := by
  cases timed with
  | false => exact .ok none
  | true =>
    simp only [LoadTest.spanOf, if_true]
    refine SameResult.map ?_ some
    rw [spread, spread]
    split_ifs
    · exact .error (e := .zeroAmount _) rfl
    · exact h.duration

lemma lifecycleOf {mode : Mode} (h : Agree mode.names p p') :
    SameResult (String.ofList p.statement) (String.ofList p'.statement) (lifecycleOf p mode)
      (lifecycleOf p' mode) := by
  cases mode with
  | regular => exact .ok Lifecycle.regular
  | looped => exact .ok Lifecycle.looped
  | cycled => exact (h.required (.head _) (readNat 32)).bind fun cycles => .ok _

end Agree

end Params

/-- Whatever is made of the parameters of two statements that agree is the same if it is the same of
parameters that agree. -/
lemma SameResult.ofStatement_bind {names : List String} (hnames : ∀ name ∈ names, ':' ∉ name.toList)
    {s s' : Statement} (h : Agree names s.args s'.args) {f : Params → Except CompileError α}
    (hf : ∀ p p', Params.Agree names p p' →
      SameResult (String.ofList p.statement) (String.ofList p'.statement) (f p) (f p')) :
    SameResult (String.ofList s.text) (String.ofList s'.text) (Params.ofStatement s >>= f)
      (Params.ofStatement s' >>= f) := by
  obtain ⟨p, p', hp, hp', hagree⟩ | ⟨hrefused, hrefused'⟩ := Params.ofStatement_agree hnames h
  · rw [hp, hp', ← Params.statement_eq hp, ← Params.statement_eq hp']
    exact hf p p' hagree
  · rw [hrefused, hrefused']
    exact .error (e := s.malformed .unnamedArgument) rfl

/-! ### Commands -/

namespace Verb

lemma not_mem_names (verb : Verb) : ∀ name ∈ verb.names, ':' ∉ name.toList := by
  have hall : ∀ verb ∈ all, ∀ name ∈ verb.names, ':' ∉ name.toList := by decide
  exact hall verb verb.mem_all

lemma namesRead_keyword (verb : Verb) : namesRead verb.keyword = verb.names := by
  have hall : ∀ verb ∈ all, namesRead verb.keyword = verb.names := by decide
  exact hall verb verb.mem_all

lemma sameResult_unit {verb : Verb} {s s' : Statement} (h : Agree verb.names s.args s'.args) :
    SameResult (String.ofList s.text) (String.ofList s'.text) (verb.unit s) (verb.unit s') := by
  have hnames := verb.not_mem_names
  cases verb with
  | create mode timed =>
    refine .ofStatement_bind hnames h fun p p' hagree => ?_
    have hmode : mode.names ⊆ (create mode timed).names := fun name hname =>
      .tail _ (List.mem_append_left _ hname)
    have hspan : spanNames timed ⊆ (create mode timed).names := fun name hname =>
      .tail _ (List.mem_append_right _ hname)
    refine (hagree.required (.head _) (readNat 64)).bind fun amount => ?_
    refine (hagree.mono hmode).lifecycleOf.bind fun lifecycle => ?_
    exact ((hagree.mono hspan).spanOf amount).bind fun span => .ok _
  | remove mode goesOn timed =>
    refine .ofStatement_bind hnames h fun p p' hagree => ?_
    refine (hagree.required (.head _) (readNat 64)).bind fun amount => ?_
    exact ((hagree.mono (List.subset_cons_self _ _)).spanOf amount).bind fun span => .ok _
  | delay => exact .ofStatement_bind hnames h fun p p' hagree => hagree.duration.bind fun _ => .ok _
  | waitForAll => exact .ok WorkUnit.waitForAll

end Verb

lemma sameResult_timesOf {s s' : Statement} (h : Agree ["times"] s.args s'.args) :
    SameResult (String.ofList s.text) (String.ofList s'.text) (timesOf s) (timesOf s') :=
  .ofStatement_bind (by decide) h fun _ _ hagree => hagree.required (.head _) (readNat 32)

/-- A repetition without a body is at fault once its parameters have been read. -/
lemma Command.handler_repeated_none {s : Statement} {times : Nat} (h : timesOf s = .ok times)
    (d : Draft ν) : Command.repeated.handler s none d = .error (s.malformed .noBlock) d := by
  obtain ⟨p, hp, htimes⟩ := bind_eq_ok.1 h
  exact (Drafting.bind_ofExcept hp _ d).trans (Drafting.bind_ofExcept htimes _ d)

lemma sameOutcome_repeated {s s' : Statement} (h : Agree ["times"] s.args s'.args)
    (body : Option (Drafting ν Unit)) (d : Draft ν) :
    SameOutcome (String.ofList s.text) (String.ofList s'.text) (Command.repeated.handler s body d)
      (Command.repeated.handler s' body d) := by
  have htimes := sameResult_timesOf h
  generalize hx : timesOf s = x, hx' : timesOf s' = x' at htimes
  cases htimes with
  | error he =>
    rw [Command.handler_repeated_of_timesOf hx, Command.handler_repeated_of_timesOf hx']
    exact .error he d
  | ok times =>
    cases body with
    | none =>
      rw [Command.handler_repeated_none hx, Command.handler_repeated_none hx']
      exact .error (e := s.malformed .noBlock) rfl d
    | some work =>
      obtain ⟨hnamed, hreads⟩ := timesOf_eq_ok.1 hx
      obtain ⟨hnamed', hreads'⟩ := timesOf_eq_ok.1 hx'
      rw [Command.handler_repeated_eq hnamed hreads, Command.handler_repeated_eq hnamed' hreads']
      cases Drafting.aside work d with
      | error e d₁ => exact .same _
      | ok units d₁ =>
        simp only
        split_ifs
        · exact .error (e := .invalidParameter _ "times" (toString times)) rfl d₁
        · exact .same _

/-- A built-in command comes to the same for two statements that agree on the names it reads. -/
lemma sameOutcome_handler {keyword : List Char} {command : Command ν}
    (hfind : builtin.find? keyword = some command) {s s' : Statement}
    (h : Agree (namesRead keyword) s.args s'.args) (body : Option (Drafting ν Unit))
    (d : Draft ν) :
    SameOutcome (String.ofList s.text) (String.ofList s'.text) (command.handler s body d)
      (command.handler s' body d) := by
  obtain ⟨verb, rfl, rfl⟩ | ⟨rfl, rfl⟩ := eq_of_find?_builtin hfind
  · rw [verb.namesRead_keyword] at h
    exact ((Verb.sameResult_unit h).outcome d).bind fun _ _ => .same _
  · exact sameOutcome_repeated h body d

/-! ### Items -/

/-- The name of an item, if it has one. -/
def itemName (item : List Char) : Option (List Char) := (splitAtFirst ':' item).map Prod.fst

/-- A change of the items that a command with these names does not see: some items of different
names, or of none, change places, or one is added that does not count. -/
inductive Rearranged (names : List String) : List (List Char) → List (List Char) → Prop
  | permuted {before items items' after : List (List Char)} (hperm : items.Perm items')
      (hdistinct : ∀ item ∈ items, ∀ other ∈ items, itemName item = itemName other →
        itemName item = none ∨ item = other) :
      Rearranged names (before ++ items ++ after) (before ++ items' ++ after)
  | empty {before after : List (List Char)} :
      Rearranged names (before ++ after) (before ++ [] :: after)
  | unknown {before after : List (List Char)} {item key : List Char}
      (hitem : itemName item = some key) (hunknown : ∀ name ∈ names, name.toList ≠ key) :
      Rearranged names (before ++ after) (before ++ item :: after)
  | duplicate {before after : List (List Char)} {earlier item key : List Char}
      (hearlier : earlier ∈ before) (hkey : itemName earlier = some key)
      (hitem : itemName item = some key) :
      Rearranged names (before ++ after) (before ++ item :: after)

lemma itemName_eq_some {item key : List Char} :
    itemName item = some key ↔ ':' ∉ key ∧ ∃ value, item = key ++ ':' :: value := by
  simp only [itemName, Option.map_eq_some_iff, Prod.exists, splitAtFirst_eq_some]
  constructor
  · rintro ⟨_, value, ⟨rfl, hkey⟩, rfl⟩
    exact ⟨hkey, value, rfl⟩
  · rintro ⟨hkey, value, rfl⟩
    exact ⟨key, value, ⟨rfl, hkey⟩, rfl⟩

lemma isPrefixOf_iff_itemName {name item : List Char} (hname : ':' ∉ name) :
    (name ++ [':']).isPrefixOf item = true ↔ itemName item = some name := by
  rw [List.isPrefixOf_iff_prefix, itemName_eq_some]
  constructor
  · rintro ⟨value, rfl⟩
    exact ⟨hname, value, by simp⟩
  · rintro ⟨-, value, rfl⟩
    exact ⟨value, by simp⟩

/-- What a command with these names sees of the items of an argument text is the same. -/
structure ItemsAgree (names : List String) (items items' : List (List Char)) : Prop where
  named : (∀ item ∈ items, item ≠ [] → ':' ∈ item) ↔ ∀ item ∈ items', item ≠ [] → ':' ∈ item
  find?_eq : ∀ name ∈ names, items.find? (name.toList ++ [':']).isPrefixOf =
    items'.find? (name.toList ++ [':']).isPrefixOf

lemma binds_iff_find? {args value : List Char} {name : String} :
    Binds args name value ↔
      (args.splitOn ',').find? (name.toList ++ [':']).isPrefixOf =
        some (name.toList ++ ':' :: value) := by
  simp only [List.find?_eq_some_iff_append, Bool.not_eq_true', Bool.eq_false_iff, ne_eq,
    List.isPrefixOf_iff_prefix]
  constructor
  · rintro ⟨before, after, heq, hbefore⟩
    exact ⟨⟨value, by simp⟩, before, after, heq, hbefore⟩
  · rintro ⟨-, before, after, heq, hbefore⟩
    exact ⟨before, after, heq, hbefore⟩

namespace ItemsAgree

variable {names : List String} {items items' : List (List Char)}

lemma agree {args args' : List Char}
    (h : ItemsAgree names (args.splitOn ',') (args'.splitOn ',')) : Agree names args args' := by
  refine ⟨h.named, fun name hname value => ?_⟩
  rw [binds_iff_find?, binds_iff_find?, h.find?_eq name hname]

/-- An item may be added where the names read from it stand already. -/
lemma add {before after : List (List Char)} {item : List Char} (hitem : item ≠ [] → ':' ∈ item)
    (hunread : ∀ name ∈ names, (name.toList ++ [':']).isPrefixOf item →
      ∃ earlier ∈ before, (name.toList ++ [':']).isPrefixOf earlier) :
    ItemsAgree names (before ++ after) (before ++ item :: after) := by
  constructor
  · simp only [List.forall_mem_append, List.forall_mem_cons]
    exact ⟨fun h => ⟨h.1, hitem, h.2⟩, fun h => ⟨h.1, h.2.2⟩⟩
  · intro name hname
    rw [List.find?_append, List.find?_append]
    cases hbefore : before.find? (name.toList ++ [':']).isPrefixOf with
    | some earlier => rfl
    | none =>
      have hskip : ¬ (name.toList ++ [':']).isPrefixOf item := fun hbegins => by
        obtain ⟨earlier, hmem, hearlier⟩ := hunread name hname hbegins
        exact List.find?_eq_none.1 hbefore earlier hmem hearlier
      rw [List.find?_cons_of_neg hskip]

lemma of_rearranged (hnames : ∀ name ∈ names, ':' ∉ name.toList)
    (h : Rearranged names items items') : ItemsAgree names items items' := by
  cases h with
  | @permuted before items items' after hperm hdistinct =>
    constructor
    · simp only [List.forall_mem_append, hperm.mem_iff]
    · intro name hname
      have hsame : items.find? (name.toList ++ [':']).isPrefixOf =
          items'.find? (name.toList ++ [':']).isPrefixOf := by
        refine List.find?_eq_find?_of_perm hperm ?_
        rintro item ⟨hitem, hbegins⟩ other ⟨hother, hbegins'⟩
        rw [isPrefixOf_iff_itemName (hnames name hname)] at hbegins hbegins'
        obtain hnone | heq := hdistinct item hitem other hother (hbegins.trans hbegins'.symm)
        · simp [hnone] at hbegins
        · exact heq
      simp only [List.find?_append, hsame]
  | empty =>
    refine add (fun hne => absurd rfl hne) fun name _ hbegins => ?_
    simp at hbegins
  | @unknown before after item key hitem hunknown =>
    obtain ⟨-, value, hvalue⟩ := itemName_eq_some.1 hitem
    refine add (fun _ => by simp [hvalue]) fun name hname hbegins => ?_
    rw [isPrefixOf_iff_itemName (hnames name hname), hitem] at hbegins
    exact absurd (Option.some.inj hbegins).symm (hunknown name hname)
  | @duplicate before after earlier item key hearlier hkey hitem =>
    obtain ⟨-, value, hvalue⟩ := itemName_eq_some.1 hitem
    refine add (fun _ => by simp [hvalue]) fun name hname hbegins => ?_
    rw [isPrefixOf_iff_itemName (hnames name hname), hitem] at hbegins
    refine ⟨earlier, hearlier, ?_⟩
    rw [isPrefixOf_iff_itemName (hnames name hname), hkey, hbegins]

lemma of_eqvGen (hnames : ∀ name ∈ names, ':' ∉ name.toList)
    (h : Relation.EqvGen (Rearranged names) items items') : ItemsAgree names items items' := by
  induction h with
  | rel _ _ h => exact of_rearranged hnames h
  | refl => exact ⟨Iff.rfl, fun _ _ => rfl⟩
  | symm _ _ _ ih => exact ⟨ih.named.symm, fun name hname => (ih.find?_eq name hname).symm⟩
  | trans _ _ _ _ _ ih ih' =>
    exact ⟨ih.named.trans ih'.named, fun name hname =>
      (ih.find?_eq name hname).trans (ih'.find?_eq name hname)⟩

end ItemsAgree

/-! ### Statements -/

lemma not_mem_namesRead {keyword : List Char} {command : Command ν}
    (hfind : builtin.find? keyword = some command) :
    ∀ name ∈ namesRead keyword, ':' ∉ name.toList := by
  obtain ⟨verb, rfl, -⟩ | ⟨rfl, -⟩ := eq_of_find?_builtin hfind
  · rw [verb.namesRead_keyword]
    exact verb.not_mem_names
  · decide

/-- Two statements of a built-in command whose arguments agree on what it reads, or come from each
other by changes that it does not see, have the same outcome: as the command handles them, and as a
text that starts with the one or the other is compiled. -/
theorem Registry.sameOutcome_of_agreeing {keyword : List Char} {command : Command ν}
    (hfind : builtin.find? keyword = some command) {s s' : Statement}
    (h : Agree (namesRead keyword) s.args s'.args ∨
      Relation.EqvGen (Rearranged (namesRead keyword)) (s.args.splitOn ',') (s'.args.splitOn ',')) :
    (∀ (body : Option (Drafting ν Unit)) (d : Draft ν),
      SameOutcome (String.ofList s.text) (String.ofList s'.text) (command.handler s body d)
        (command.handler s' body d)) ∧
    ∀ text text' rest, Starts builtin.find? Command.form text command s rest →
      Starts builtin.find? Command.form text' command s' rest → s.body = s'.body →
      ∀ d : Draft ν, SameOutcome (String.ofList s.text) (String.ofList s'.text)
        (builtin.compileBlock text d) (builtin.compileBlock text' d) := by
  have hagree : Agree (namesRead keyword) s.args s'.args :=
    h.elim id fun h => (ItemsAgree.of_eqvGen (not_mem_namesRead hfind) h).agree
  refine ⟨sameOutcome_handler hfind hagree, fun text text' rest hstarts hstarts' hbody d => ?_⟩
  rw [hstarts.compileBlock_eq, hstarts'.compileBlock_eq, ← hbody]
  exact (sameOutcome_handler hfind hagree _ d).bind fun unit _ => .same _

/-- Two faulty parameters change places, and an empty item, an unknown name and a later duplicate
are added: of the two faults the same one is reported. -/
theorem Registry.sameOutcome_of_faults :
    (builtin : Registry Empty).find? "createcycledusers".toList =
        some (.unit (createUnit .cycled false)) ∧
      Relation.EqvGen (Rearranged (namesRead "createcycledusers".toList))
        ("amount:1:2,cyclestorun:x".toList.splitOn ',')
        ("cyclestorun:x,amount:1:2,,color:red,amount:3".toList.splitOn ',') ∧
      ∀ d : Draft Empty,
        SameOutcome "createcycledusers(amount:1:2,cyclestorun:x);"
          "createcycledusers(cyclestorun:x,amount:1:2,,color:red,amount:3);"
          (builtin.compileBlock ((Verb.create .cycled false).statement
            "amount:1:2,cyclestorun:x".toList).text d)
          (builtin.compileBlock ((Verb.create .cycled false).statement
            "cyclestorun:x,amount:1:2,,color:red,amount:3".toList).text d) := by
  have hfind : (builtin : Registry Empty).find? "createcycledusers".toList =
      some (.unit (createUnit .cycled false)) := rfl
  let names := namesRead "createcycledusers".toList
  have hswap : Rearranged names ["amount:1:2".toList, "cyclestorun:x".toList]
      ["cyclestorun:x".toList, "amount:1:2".toList] :=
    @Rearranged.permuted names [] ["amount:1:2".toList, "cyclestorun:x".toList] _ []
      (.swap _ _ _) (by decide)
  have hempty : Rearranged names ["cyclestorun:x".toList, "amount:1:2".toList]
      ["cyclestorun:x".toList, "amount:1:2".toList, []] :=
    @Rearranged.empty names ["cyclestorun:x".toList, "amount:1:2".toList] []
  have hunknown : Rearranged names ["cyclestorun:x".toList, "amount:1:2".toList, []]
      ["cyclestorun:x".toList, "amount:1:2".toList, [], "color:red".toList] :=
    @Rearranged.unknown names ["cyclestorun:x".toList, "amount:1:2".toList, []] [] _ "color".toList
      rfl (by decide)
  have hduplicate : Rearranged names
      ["cyclestorun:x".toList, "amount:1:2".toList, [], "color:red".toList]
      ["cyclestorun:x".toList, "amount:1:2".toList, [], "color:red".toList, "amount:3".toList] :=
    @Rearranged.duplicate names
      ["cyclestorun:x".toList, "amount:1:2".toList, [], "color:red".toList]
      [] "amount:1:2".toList _ "amount".toList (by decide) rfl rfl
  have hchanged : Relation.EqvGen (Rearranged (namesRead "createcycledusers".toList))
      ("amount:1:2,cyclestorun:x".toList.splitOn ',')
      ("cyclestorun:x,amount:1:2,,color:red,amount:3".toList.splitOn ',') :=
    .trans _ _ _ (.rel _ _ hswap) (.trans _ _ _ (.rel _ _ hempty)
      (.trans _ _ _ (.rel _ _ hunknown) (.rel _ _ hduplicate)))
  have hstarts : ∀ args, ')' ∉ args → Starts (builtin : Registry Empty).find? Command.form
      ((Verb.create .cycled false).statement args).text (.unit (createUnit .cycled false))
      ((Verb.create .cycled false).statement args) [] := fun args hargs =>
    .simple (Verb.not_mem_keyword _) (Verb.find?_keyword (.create .cycled false)) rfl hargs
  have hbefore := hstarts "amount:1:2,cyclestorun:x".toList (by decide)
  have hafter := hstarts "cyclestorun:x,amount:1:2,,color:red,amount:3".toList (by decide)
  have hquoted : String.ofList ((Verb.create .cycled false).statement
      "amount:1:2,cyclestorun:x".toList).text = "createcycledusers(amount:1:2,cyclestorun:x);" := by
    decide
  have hquoted' : String.ofList ((Verb.create .cycled false).statement
      "cyclestorun:x,amount:1:2,,color:red,amount:3".toList).text =
        "createcycledusers(cyclestorun:x,amount:1:2,,color:red,amount:3);" := by
    decide
  refine ⟨hfind, hchanged, ?_⟩
  rw [← hquoted, ← hquoted']
  generalize "amount:1:2,cyclestorun:x".toList = args,
    "cyclestorun:x,amount:1:2,,color:red,amount:3".toList = args' at hchanged hbefore hafter ⊢
  exact (Registry.sameOutcome_of_agreeing hfind (.inr hchanged)).2 _ _ [] hbefore hafter rfl

end LoadTest
