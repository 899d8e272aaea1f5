import LoadTest.Proofs.Meaning

/-!
# How texts open

The built-in commands know two shapes of statements: a verb with a semicolon, and the repetition
with a body in braces. A text opens with a statement of one of these shapes, or there is a reason
why it opens with none, and locating the first statement finds out just that.
-/

namespace LoadTest

open Text

variable {ν : Type}

/-! ### Statements -/

/-- The statement of a verb. -/
def Verb.statement (verb : Verb) (args : List Char) : Statement where
  keyword := verb.keyword
  text := head verb.keyword args ++ [';']
  args := args
  body := none

/-- The statement that repeats a body. -/
def blockOf (args body : List Char) (semicolon : Bool) : Statement where
  keyword := repeatKeyword
  text := head repeatKeyword args ++ ('\x7b' :: body ++ '\x7d' :: blockEnd semicolon)
  args := args
  body := some body

lemma Verb.statement_ne_blockOf (verb : Verb) (args args' body : List Char) (semicolon : Bool) :
    verb.statement args ≠ blockOf args' body semicolon := by
  intro h
  have hbody : none = some body := congrArg Statement.body h
  cases hbody

/-- A text opens with a whole statement, and goes on with `rest`. A semicolon right after a block
belongs to the block. -/
inductive Opens : (text : List Char) → Statement → (rest : List Char) → Prop
  | simple {verb : Verb} {args rest : List Char} (hargs : ')' ∉ args) :
      Opens ((verb.statement args).text ++ rest) (verb.statement args) rest
  | block {args body rest : List Char} {semicolon : Bool} (hargs : ')' ∉ args)
      (hbody : Balanced body) (hrest : semicolon = false → rest.head? ≠ some ';') :
      Opens ((blockOf args body semicolon).text ++ rest) (blockOf args body semicolon) rest

/-- A text opens with whole statements, one after the other, and goes on with `rest`. -/
inductive Passes : (text : List Char) → List Statement → (rest : List Char) → Prop
  | nil {text : List Char} : Passes text [] text
  | cons {text after rest : List Char} {s : Statement} {statements : List Statement}
      (hopens : Opens text s after) (hpasses : Passes after statements rest) :
      Passes text (s :: statements) rest

lemma Opens.text_append {text rest : List Char} {s : Statement} (h : Opens text s rest) :
    s.text ++ rest = text := by
  cases h <;> rfl

lemma Opens.text_ne_nil {text rest : List Char} {s : Statement} (h : Opens text s rest) :
    s.text ≠ [] := by
  cases h <;> simp [Verb.statement, blockOf, head]

lemma Opens.rest_lt {text rest : List Char} {s : Statement} (h : Opens text s rest) :
    rest.length < text.length := by
  have hpos := List.length_pos_iff.2 h.text_ne_nil
  have hlength := congrArg List.length h.text_append
  rw [List.length_append] at hlength
  omega

lemma Opens.body_lt {text rest body : List Char} {s : Statement} (h : Opens text s rest)
    (hbody : s.body = some body) : body.length < text.length := by
  have hlength := congrArg List.length h.text_append
  cases h with
  | simple => cases hbody
  | block =>
    cases hbody
    simp only [blockOf, List.length_append, List.length_cons] at hlength ⊢
    omega

/-- A statement stays one if less follows it. -/
lemma Opens.shorten {text a b : List Char} {s : Statement} (h : Opens text s (a ++ b)) :
    Opens (s.text ++ a) s a := by
  cases h with
  | simple hargs => exact .simple hargs
  | block hargs hbody hrest =>
    refine .block hargs hbody fun hsemicolon hhead => hrest hsemicolon ?_
    obtain ⟨t, rfl⟩ := List.head?_eq_some_iff.1 hhead
    rfl

lemma Passes.text_append {text rest : List Char} {statements : List Statement}
    (h : Passes text statements rest) : statements.flatMap (·.text) ++ rest = text := by
  induction h with
  | nil => rfl
  | cons hopens _ ih => rw [List.flatMap_cons, List.append_assoc, ih, hopens.text_append]

/-- A statement stays one in front of whole statements only. -/
lemma Opens.before {text after rest : List Char} {s : Statement} {statements : List Statement}
    (h : Opens text s after) (hpasses : Passes after statements rest) :
    Opens (s.text ++ statements.flatMap (·.text)) s (statements.flatMap (·.text)) := by
  rw [← hpasses.text_append] at h
  exact h.shorten

/-- The built-in commands find just these statements. -/
lemma Opens.of_starts {text rest : List Char} {command : Command ν} {s : Statement}
    (h : Starts builtin.find? Command.form text command s rest) : Opens text s rest := by
  cases h with
  | @simple keyword args rest _ _ hfind hform hargs =>
    obtain ⟨verb, rfl, rfl⟩ | ⟨-, rfl⟩ := eq_of_find?_builtin hfind
    · have h : Opens _ (verb.statement args) rest := .simple hargs
      rwa [Verb.statement, List.append_assoc] at h
    · cases hform
  | @block keyword args body rest _ _ hfind hform hargs hbody hrest =>
    obtain ⟨verb, -, rfl⟩ | ⟨rfl, rfl⟩ := eq_of_find?_builtin hfind
    · cases hform
    · have h : Opens _ (blockOf args body false) rest := .block hargs hbody fun _ => hrest
      simpa [blockOf, blockEnd] using h
  | @blockSemicolon keyword args body rest _ _ hfind hform hargs hbody =>
    obtain ⟨verb, -, rfl⟩ | ⟨rfl, rfl⟩ := eq_of_find?_builtin hfind
    · cases hform
    · have h : Opens _ (blockOf args body true) rest := .block hargs hbody (by simp)
      simpa [blockOf, blockEnd] using h

/-- The command of a statement. -/
lemma Opens.exists_starts {text rest : List Char} {s : Statement} (h : Opens text s rest) :
    ∃ command : Command ν, Starts builtin.find? Command.form text command s rest ∧
      ((∃ verb : Verb, s = verb.statement s.args ∧ command = .unit verb.unit) ∨
        ∃ body semicolon, s = blockOf s.args body semicolon ∧ command = .repeated) := by
  cases h with
  | @simple verb args rest hargs =>
    refine ⟨.unit verb.unit, ?_, .inl ⟨verb, rfl, rfl⟩⟩
    have h : Starts builtin.find? (@Command.form ν) _ _ _ rest :=
      .simple verb.not_mem_keyword verb.find?_keyword rfl hargs
    simpa [Verb.statement] using h
  | @block args body rest semicolon hargs hbody hrest =>
    refine ⟨.repeated, ?_, .inr ⟨body, semicolon, rfl, rfl⟩⟩
    cases semicolon with
    | false =>
      have h : Starts builtin.find? (@Command.form ν) _ _ _ rest :=
        .block not_mem_repeatKeyword find?_repeatKeyword rfl hargs hbody (hrest rfl)
      simpa [blockOf, blockEnd] using h
    | true =>
      have h : Starts builtin.find? (@Command.form ν) _ _ _ rest :=
        .blockSemicolon not_mem_repeatKeyword find?_repeatKeyword rfl hargs hbody
      simpa [blockOf, blockEnd] using h

/-- A text opens with one statement at most. -/
lemma Opens.unique {text rest rest' : List Char} {s s' : Statement} (h : Opens text s rest)
    (h' : Opens text s' rest') : s = s' ∧ rest = rest' := by
  obtain ⟨_, hstarts, -⟩ := h.exists_starts (ν := Empty)
  obtain ⟨_, hstarts', -⟩ := h'.exists_starts (ν := Empty)
  obtain ⟨found, hfound, -, rfl, rfl⟩ := hstarts.exists_locate
  obtain ⟨found', hfound', -, rfl, rfl⟩ := hstarts'.exists_locate
  obtain rfl := Except.ok.inj (hfound.symm.trans hfound')
  exact ⟨rfl, rfl⟩

/-! ### Texts without a statement -/

/-- A word that the built-in commands know. -/
def IsKeyword (keyword : List Char) : Prop :=
  (∃ verb : Verb, keyword = verb.keyword) ∨ keyword = repeatKeyword

/-- Why a text opens with no statement. -/
inductive NoStatement : (text : List Char) → CompileError → Prop
  | noOpening {text : List Char} (h : '(' ∉ text) :
      NoStatement text (.malformed (String.ofList text) .noOpening)
  | unknown {keyword after : List Char} (hkeyword : '(' ∉ keyword) (h : ¬ IsKeyword keyword) :
      NoStatement (keyword ++ '(' :: after) (.unknownCommand (String.ofList keyword)
        (String.ofList (upToTerminator (keyword ++ '(' :: after))))
  | noClosing {keyword after : List Char} (hkeyword : IsKeyword keyword) (h : ')' ∉ after) :
      NoStatement (keyword ++ '(' :: after)
        (.malformed (String.ofList (keyword ++ '(' :: after)) .noClosing)
  | noSemicolon {verb : Verb} {args tail : List Char} (hargs : ')' ∉ args)
      (h : tail.head? ≠ some ';') :
      NoStatement (head verb.keyword args ++ tail)
        (.malformed (String.ofList (head verb.keyword args ++ tail)) .noSemicolon)
  | noBrace {args tail : List Char} (hargs : ')' ∉ args) (h : tail.head? ≠ some '\x7b') :
      NoStatement (head repeatKeyword args ++ tail)
        (.malformed (String.ofList (head repeatKeyword args ++ tail)) .noBrace)
  | unclosed {args inner : List Char} (hargs : ')' ∉ args)
      (h : ∀ body rest, inner = body ++ '\x7d' :: rest → ¬ Balanced body) :
      NoStatement (head repeatKeyword args ++ '\x7b' :: inner)
        (.malformed (String.ofList (head repeatKeyword args ++ '\x7b' :: inner)) .unclosedBlock)

lemma find?_builtin_eq_none {keyword : List Char} :
    (builtin : Registry ν).find? keyword = none ↔ ¬ IsKeyword keyword := by
  constructor
  · rintro h (⟨verb, rfl⟩ | rfl)
    · rw [verb.find?_keyword] at h
      cases h
    · rw [find?_repeatKeyword] at h
      cases h
  · intro h
    cases hfind : (builtin : Registry ν).find? keyword with
    | none => rfl
    | some command =>
      obtain ⟨verb, rfl, -⟩ | ⟨rfl, -⟩ := eq_of_find?_builtin hfind
      · exact absurd (.inl ⟨verb, rfl⟩) h
      · exact absurd (.inr rfl) h

lemma closeBlock_eq_none {inner : List Char} :
    closeBlock 0 inner = none ↔ ∀ body rest, inner = body ++ '\x7d' :: rest → ¬ Balanced body := by
  constructor
  · rintro hnone body rest rfl hbody
    rw [closeBlock_eq_some.2 ⟨rfl, hbody⟩] at hnone
    cases hnone
  · intro h
    cases hclose : closeBlock 0 inner with
    | none => rfl
    | some p =>
      obtain ⟨heq, hbody⟩ := closeBlock_eq_some.1 hclose
      exact absurd hbody (h _ _ heq)

lemma form_eq_simple {keyword : List Char} {command : Command ν}
    (hfind : builtin.find? keyword = some command) (hform : command.form = .simple) :
    ∃ verb : Verb, keyword = verb.keyword := by
  obtain ⟨verb, rfl, -⟩ | ⟨-, rfl⟩ := eq_of_find?_builtin hfind
  · exact ⟨verb, rfl⟩
  · cases hform

lemma form_eq_block {keyword : List Char} {command : Command ν}
    (hfind : builtin.find? keyword = some command) (hform : command.form = .block) :
    keyword = repeatKeyword := by
  obtain ⟨verb, -, rfl⟩ | ⟨rfl, -⟩ := eq_of_find?_builtin hfind
  · cases hform
  · rfl

lemma NoStatement.of_locateEnd {command : Command ν} {keyword args tail input : List Char}
    {e : CompileError} (hfind : builtin.find? keyword = some command) (hargs : ')' ∉ args)
    (hinput : head keyword args ++ tail = input)
    (h : locateEnd command command.form keyword args tail hinput = .error e) :
    NoStatement input e := by
  subst hinput
  unfold locateEnd at h
  split at h
  next => cases h
  next tail _ _ hform _ _ hne =>
    obtain ⟨verb, rfl⟩ := form_eq_simple hfind hform
    cases h
    refine .noSemicolon hargs fun hhead => ?_
    obtain ⟨rest, rfl⟩ := List.head?_eq_some_iff.1 hhead
    exact hne rest rfl rfl HEq.rfl
  next inner hform _ _ =>
    obtain rfl := form_eq_block hfind hform
    split at h
    next hclose =>
      cases h
      exact .unclosed hargs (closeBlock_eq_none.1 hclose)
    next => cases h
    next => cases h
  next tail _ _ hform _ _ hne =>
    obtain rfl := form_eq_block hfind hform
    cases h
    refine .noBrace hargs fun hhead => ?_
    obtain ⟨inner, rfl⟩ := List.head?_eq_some_iff.1 hhead
    exact hne inner rfl rfl HEq.rfl

lemma NoStatement.of_locate {text : List Char} {e : CompileError}
    (h : locate (builtin : Registry ν).find? Command.form text = .error e) :
    NoStatement text e := by
  rw [locate] at h
  split at h
  next hk =>
    cases h
    exact .noOpening (splitAtFirst_eq_none.1 hk)
  next keyword after hk =>
    obtain ⟨rfl, hkeyword⟩ := splitAtFirst_eq_some.1 hk
    split at h
    next hfind =>
      cases h
      exact .unknown hkeyword (find?_builtin_eq_none.1 hfind)
    next command hfind =>
      split at h
      next ha =>
        cases h
        refine .noClosing ?_ (splitAtFirst_eq_none.1 ha)
        obtain ⟨verb, hverb, -⟩ | ⟨hrepeat, -⟩ := eq_of_find?_builtin hfind
        · exact .inl ⟨verb, hverb⟩
        · exact .inr hrepeat
      next args tail ha =>
        exact .of_locateEnd hfind (splitAtFirst_eq_some.1 ha).2 _ h

lemma IsKeyword.not_mem {keyword : List Char} (h : IsKeyword keyword) : '(' ∉ keyword := by
  obtain ⟨verb, rfl⟩ | rfl := h
  · exact verb.not_mem_keyword
  · exact not_mem_repeatKeyword

lemma IsKeyword.exists_find? {keyword : List Char} (h : IsKeyword keyword) :
    ∃ command, (builtin : Registry ν).find? keyword = some command := by
  refine Option.ne_none_iff_exists'.1 fun hnone => ?_
  exact find?_builtin_eq_none.1 hnone h

/-- Locating a statement fails exactly if there is none, for the reason given. -/
lemma locate_eq_error {text : List Char} {e : CompileError} :
    locate (builtin : Registry ν).find? Command.form text = .error e ↔ NoStatement text e := by
  refine ⟨.of_locate, fun h => ?_⟩
  cases h with
  | noOpening h =>
    rw [locate]
    split
    next => rfl
    next hk => exact absurd h (by simp [(splitAtFirst_eq_some.1 hk).1])
  | @unknown keyword after hkeyword h =>
    have hsplit : splitAtFirst '(' (keyword ++ '(' :: after) = some (keyword, after) :=
      splitAtFirst_eq_some.2 ⟨rfl, hkeyword⟩
    rw [locate]
    split
    next hk => simp [hsplit] at hk
    next hk =>
      obtain ⟨rfl, rfl⟩ := Prod.mk.inj (Option.some.inj (hsplit.symm.trans hk))
      rw [find?_builtin_eq_none.2 h]
  | @noClosing keyword after hkeyword h =>
    have hsplit : splitAtFirst '(' (keyword ++ '(' :: after) = some (keyword, after) :=
      splitAtFirst_eq_some.2 ⟨rfl, hkeyword.not_mem⟩
    obtain ⟨command, hfind⟩ := hkeyword.exists_find? (ν := ν)
    rw [locate]
    split
    next hk => simp [hsplit] at hk
    next hk =>
      obtain ⟨rfl, rfl⟩ := Prod.mk.inj (Option.some.inj (hsplit.symm.trans hk))
      rw [hfind]
      simp only
      split
      next => rfl
      next ha => exact absurd h (by simp [(splitAtFirst_eq_some.1 ha).1])
  | @noSemicolon verb args tail hargs h =>
    rw [locate_head verb.not_mem_keyword verb.find?_keyword hargs]
    unfold locateEnd
    split
    next => simp at h
    next => rfl
    next hform _ _ => cases hform
    next hform _ _ _ => cases hform
  | @noBrace args tail hargs h =>
    rw [locate_head not_mem_repeatKeyword find?_repeatKeyword hargs]
    unfold locateEnd
    split
    next hform _ _ => cases hform
    next hform _ _ _ => cases hform
    next => simp at h
    next => rfl
  | @unclosed args inner hargs h =>
    rw [locate_head not_mem_repeatKeyword find?_repeatKeyword hargs]
    have hclose := closeBlock_eq_none.2 h
    simp only [Command.repeated, locateEnd]
    split
    next => rfl
    next hsome => simp [hclose] at hsome
    next hsome => simp [hclose] at hsome

end LoadTest
