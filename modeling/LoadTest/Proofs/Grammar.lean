import LoadTest.Lifecycle
import LoadTest.Proofs.Location

/-!
# The grammar of scenarios

A scenario in normal form is a sequence of statements. A simple statement is a keyword and its
arguments, with a semicolon at the end; a block is a repetition of a scenario in balanced braces,
with one semicolon after it at most. No text has two derivations.
-/

namespace LoadTest

/-- The commands of simple statements. Only users that go on by themselves can be removed. -/
inductive Verb where
  | create (mode : Mode) (timed : Bool)
  | remove (mode : Mode) (goesOn : mode ≠ .regular) (timed : Bool)
  | delay
  | waitForAll
  deriving DecidableEq

/-- How a keyword names the users of a mode. -/
def Mode.users : Mode → String
  | .regular => "users"
  | .looped => "loopedusers"
  | .cycled => "cycledusers"

/-- The ending of the keywords of timed commands. -/
def timing (timed : Bool) : String := if timed then "overtime" else ""

def Verb.keyword : Verb → List Char
  | .create mode timed => "create".toList ++ mode.users.toList ++ (timing timed).toList
  | .remove mode _ timed => "remove".toList ++ mode.users.toList ++ (timing timed).toList
  | .delay => "delay".toList
  | .waitForAll => "waitforallclientstofinish".toList

def repeatKeyword : List Char := "repeat".toList

/-- A derivation: the statements of a scenario in order. A block may have a semicolon after it. -/
inductive Derivation where
  | nil
  | simple (verb : Verb) (args : List Char) (rest : Derivation)
  | block (args : List Char) (body : Derivation) (semicolon : Bool) (rest : Derivation)
  deriving DecidableEq

/-- What may stand after a block. -/
def blockEnd (semicolon : Bool) : List Char := if semicolon then [';'] else []

/-- The rules of the grammar. -/
inductive Derives : List Char → Derivation → Prop
  | nil : Derives [] .nil
  | simple {verb : Verb} {args rest : List Char} {d : Derivation} (hargs : ')' ∉ args)
      (hrest : Derives rest d) :
      Derives (verb.keyword ++ '(' :: args ++ [')'] ++ ';' :: rest) (.simple verb args d)
  | block {args body rest : List Char} {b d : Derivation} {semicolon : Bool} (hargs : ')' ∉ args)
      (hbalanced : Balanced body) (hbody : Derives body b) (hrest : Derives rest d) :
      Derives (repeatKeyword ++ '(' :: args ++ [')'] ++
        '\x7b' :: (body ++ '\x7d' :: (blockEnd semicolon ++ rest))) (.block args b semicolon d)

/-! ### Keywords -/

namespace Verb

def all : List Verb :=
  [.create .regular false, .create .regular true, .create .cycled false, .create .cycled true,
    .remove .cycled (by decide) false, .remove .cycled (by decide) true, .create .looped false,
    .create .looped true, .remove .looped (by decide) false, .remove .looped (by decide) true,
    .delay, .waitForAll]

lemma mem_all (v : Verb) : v ∈ all := by
  rcases v with ⟨mode, timed⟩ | ⟨mode, h, timed⟩ | _ | _
  · cases mode <;> cases timed <;> simp [all]
  · cases mode
    · exact absurd rfl h
    all_goals cases timed <;> simp [all]
  · simp [all]
  · simp [all]

lemma keyword_injective {v w : Verb} (h : v.keyword = w.keyword) : v = w := by
  have hall : ∀ v ∈ all, ∀ w ∈ all, v.keyword = w.keyword → v = w := by decide
  exact hall v v.mem_all w w.mem_all h

lemma keyword_ne_repeat (v : Verb) : v.keyword ≠ repeatKeyword := by
  have hall : ∀ v ∈ all, v.keyword ≠ repeatKeyword := by decide
  exact hall v v.mem_all

lemma not_mem_keyword (v : Verb) : '(' ∉ v.keyword := by
  have hall : ∀ v ∈ all, '(' ∉ v.keyword := by decide
  exact hall v v.mem_all

lemma head?_keyword (v : Verb) : v.keyword ≠ [] ∧ v.keyword.head? ≠ some ';' := by
  have hall : ∀ v ∈ all, v.keyword ≠ [] ∧ v.keyword.head? ≠ some ';' := by decide
  exact hall v v.mem_all

end Verb

lemma not_mem_repeatKeyword : '(' ∉ repeatKeyword := by decide

/-! ### Derivations are unique -/

/-- The head of a statement ends at the same place however it is read. -/
lemma head_append_inj {keyword keyword' args args' tail tail' : List Char}
    (hk : '(' ∉ keyword) (hk' : '(' ∉ keyword') (ha : ')' ∉ args) (ha' : ')' ∉ args')
    (h : head keyword args ++ tail = head keyword' args' ++ tail') :
    keyword = keyword' ∧ args = args' ∧ tail = tail' := by
  have hsplit : some (keyword, args ++ ')' :: tail) = some (keyword', args' ++ ')' :: tail') := by
    rw [← splitAtFirst_head hk, h, splitAtFirst_head hk']
  obtain ⟨rfl, hafter⟩ := Prod.mk.inj (Option.some.inj hsplit)
  have hargs : some (args, tail) = some (args', tail') := by
    rw [← Text.splitAtFirst_eq_some.2 ⟨rfl, ha⟩, hafter, Text.splitAtFirst_eq_some.2 ⟨rfl, ha'⟩]
  obtain ⟨rfl, rfl⟩ := Prod.mk.inj (Option.some.inj hargs)
  exact ⟨rfl, rfl, rfl⟩

/-- A block ends at the same brace however it is read. -/
lemma block_append_inj {body body' tail tail' : List Char} (hb : Balanced body)
    (hb' : Balanced body') (h : body ++ '\x7d' :: tail = body' ++ '\x7d' :: tail') :
    body = body' ∧ tail = tail' := by
  have hclose : some (body, tail) = some (body', tail') := by
    rw [← closeBlock_eq_some.2 ⟨rfl, hb⟩, h, closeBlock_eq_some.2 ⟨rfl, hb'⟩]
  exact Prod.mk.inj (Option.some.inj hclose)

/-- No scenario begins with a semicolon. -/
lemma Derives.head?_ne {s : List Char} {d : Derivation} (h : Derives s d) : s.head? ≠ some ';' := by
  cases h with
  | nil => simp
  | @simple verb =>
    obtain ⟨hne, hhead⟩ := verb.head?_keyword
    obtain ⟨c, cs, hc⟩ := List.exists_cons_of_ne_nil hne
    simpa [hc] using hhead
  | block => simp [repeatKeyword]

/-- A semicolon after a block can only belong to the block. -/
lemma blockEnd_append_inj {semicolon semicolon' : Bool} {rest rest' : List Char}
    (hr : rest.head? ≠ some ';') (hr' : rest'.head? ≠ some ';')
    (h : blockEnd semicolon ++ rest = blockEnd semicolon' ++ rest') :
    semicolon = semicolon' ∧ rest = rest' := by
  cases semicolon <;> cases semicolon'
  · exact ⟨rfl, h⟩
  · exact absurd (congrArg List.head? h) hr
  · exact absurd (congrArg List.head? h.symm) hr'
  · exact ⟨rfl, (List.cons.inj h).2⟩

/-- A text has one derivation at most. -/
theorem Derives.unique {s : List Char} {d e : Derivation} (hd : Derives s d) (he : Derives s e) :
    d = e := by
  induction hd generalizing e with
  | nil =>
    generalize hs : ([] : List Char) = s at he
    cases he with
    | nil => rfl
    | simple => simp at hs
    | block => simp at hs
  | @simple verb args rest d hargs hrest ih =>
    generalize hs : verb.keyword ++ '(' :: args ++ [')'] ++ ';' :: rest = s at he
    cases he with
    | nil => simp at hs
    | simple hargs' hrest' =>
      obtain ⟨hk, rfl, htail⟩ :=
        head_append_inj verb.not_mem_keyword (Verb.not_mem_keyword _) hargs hargs' hs
      obtain rfl := Verb.keyword_injective hk
      obtain ⟨-, rfl⟩ := List.cons.inj htail
      rw [ih hrest']
    | block hargs' =>
      obtain ⟨hk, -⟩ :=
        head_append_inj verb.not_mem_keyword not_mem_repeatKeyword hargs hargs' hs
      exact absurd hk verb.keyword_ne_repeat
  | @block args body rest b d semicolon hargs hbalanced hbody hrest ihbody ih =>
    generalize hs : repeatKeyword ++ '(' :: args ++ [')'] ++
      '\x7b' :: (body ++ '\x7d' :: (blockEnd semicolon ++ rest)) = s at he
    cases he with
    | nil => simp at hs
    | @simple verb _ _ _ hargs' =>
      obtain ⟨hk, -⟩ :=
        head_append_inj not_mem_repeatKeyword verb.not_mem_keyword hargs hargs' hs
      exact absurd hk.symm verb.keyword_ne_repeat
    | block hargs' hbalanced' hbody' hrest' =>
      obtain ⟨-, rfl, htail⟩ :=
        head_append_inj not_mem_repeatKeyword not_mem_repeatKeyword hargs hargs' hs
      obtain ⟨rfl, hend⟩ := block_append_inj hbalanced hbalanced' (List.cons.inj htail).2
      obtain ⟨rfl, rfl⟩ := blockEnd_append_inj hrest.head?_ne hrest'.head?_ne hend
      rw [ihbody hbody', ih hrest']

end LoadTest
