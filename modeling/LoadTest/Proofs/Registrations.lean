import LoadTest.Proofs.Comments
import LoadTest.Proofs.Faults

/-!
# Registrations

A registry grows by calls that give a keyword and its command. Its keys are in lower case, and a key
belongs to the first call under any spelling of it. Whether a registered command can be reached
from a scenario text is another matter: the keyword of a statement is what the normal form has in
front of its first parenthesis. So a keyword is found in every spelling unless it has blanks, a
parenthesis or a marker within, and then it is not found at all.
-/

namespace LoadTest

open Text

variable {ν : Type}

/-! ### Calls -/

namespace Registry

/-- The registry after one call, which may have failed. -/
def registering (r : Registry ν) (call : String × Command ν) : Registry ν :=
  (r.enter call.1 call.2).2

/-- The registry after some calls. -/
def registerAll (r : Registry ν) (calls : List (String × Command ν)) : Registry ν :=
  calls.foldl registering r

def keys (r : Registry ν) : List (List Char) := r.commands.map Prod.fst

/-- The command of the first call with a spelling of the key. -/
def firstCommand (calls : List (String × Command ν)) (key : List Char) : Option (Command ν) :=
  (calls.find? fun call => lower call.1.toList = key).map Prod.snd

variable {r : Registry ν} {key : List Char} {keyword : String} {command : Command ν}

lemma find?_eq_none : r.find? key = none ↔ key ∉ r.keys := by
  simp only [find?, List.lookup_eq_none_iff, keys, List.mem_map, not_exists, not_and, bne_iff_ne]
  exact forall₂_congr fun _ _ => ne_comm

lemma mem_keys (h : r.find? key = some command) : key ∈ r.keys := by
  by_contra hkey
  rw [find?_eq_none.2 hkey] at h
  cases h

/-- One call fails if its key is taken, and puts its command there otherwise. -/
lemma enter_eq (r : Registry ν) (keyword : String) (command : Command ν) :
    r.enter keyword command =
      if lower keyword.toList ∈ r.keys then
        (.error (.duplicateCommand (String.ofList (lower keyword.toList))), r)
      else (.ok (), ⟨r.commands ++ [(lower keyword.toList, command)]⟩) := by
  rw [enter]
  split
  next hfind => rw [if_pos (mem_keys hfind)]
  next hfind => rw [if_neg (find?_eq_none.1 hfind)]

lemma enter_eq_error {e : CompileError} :
    (r.enter keyword command).1 = .error e ↔
      lower keyword.toList ∈ r.keys ∧
        e = .duplicateCommand (String.ofList (lower keyword.toList)) := by
  rw [enter_eq]
  split_ifs with hkey <;> simp [hkey, eq_comm]

lemma enter_eq_ok : (r.enter keyword command).1 = .ok () ↔ lower keyword.toList ∉ r.keys := by
  rw [enter_eq]
  split_ifs with hkey <;> simp [hkey]

lemma register_eq_error {e : CompileError} :
    r.register keyword command = .error e ↔ (r.enter keyword command).1 = .error e := by
  rw [register]
  cases (r.enter keyword command).1 <;> simp [Except.map]

lemma registering_eq (r : Registry ν) (call : String × Command ν) :
    r.registering call =
      if lower call.1.toList ∈ r.keys then r
      else ⟨r.commands ++ [(lower call.1.toList, call.2)]⟩ := by
  rw [registering, enter_eq]
  split_ifs <;> rfl

lemma find?_registering (r : Registry ν) (call : String × Command ν) (key : List Char) :
    (r.registering call).find? key =
      (r.find? key).or (if lower call.1.toList = key then some call.2 else none) := by
  rw [registering_eq]
  split_ifs with htaken hkey hkey
  · subst hkey
    obtain ⟨c, hc⟩ := Option.ne_none_iff_exists'.1 fun h => find?_eq_none.1 h htaken
    rw [hc, Option.some_or]
  · rw [Option.or_none]
  · simp [find?, List.lookup_append, hkey]
  · simp [find?, List.lookup_append, List.lookup_cons, beq_eq_false_iff_ne.2 (Ne.symm hkey)]

lemma registerAll_append (r : Registry ν) (calls more : List (String × Command ν)) :
    r.registerAll (calls ++ more) = (r.registerAll calls).registerAll more :=
  List.foldl_append

/-- The first registration under any spelling counts. -/
lemma find?_registerAll (r : Registry ν) (calls : List (String × Command ν)) (key : List Char) :
    (r.registerAll calls).find? key = (r.find? key).or (firstCommand calls key) := by
  induction calls generalizing r with
  | nil => simp [registerAll, firstCommand]
  | cons call calls ih =>
    have hfirst : firstCommand (call :: calls) key =
        (if lower call.1.toList = key then some call.2 else none).or (firstCommand calls key) := by
      by_cases hkey : lower call.1.toList = key <;> simp [firstCommand, hkey]
    rw [hfirst, ← Option.or_assoc, ← find?_registering]
    exact ih (r.registering call)

/-- The keys are in lower case, and no two are the same. -/
structure WellKeyed (r : Registry ν) : Prop where
  lower_eq : ∀ key ∈ r.keys, lower key = key
  nodup : r.keys.Nodup

lemma wellKeyed_empty : (empty : Registry ν).WellKeyed where
  lower_eq := by simp [empty, keys]
  nodup := by simp [empty, keys]

lemma wellKeyed_builtin : (builtin : Registry ν).WellKeyed := by
  have hkeys : (builtin : Registry ν).keys = (builtin : Registry Empty).keys := rfl
  constructor
  · rw [hkeys]
    decide +kernel
  · rw [hkeys]
    decide +kernel

lemma WellKeyed.registering (h : r.WellKeyed) (call : String × Command ν) :
    (r.registering call).WellKeyed := by
  rw [registering_eq]
  split_ifs with hkey
  · exact h
  · have hkeys : (⟨r.commands ++ [(lower call.1.toList, call.2)]⟩ : Registry ν).keys =
        r.keys ++ [lower call.1.toList] := by simp [keys]
    constructor
    · rw [hkeys, List.forall_mem_append]
      exact ⟨h.lower_eq, by simpa using lower_lower _⟩
    · rw [hkeys]
      refine List.nodup_append.2 ⟨h.nodup, by simp, ?_⟩
      rintro key hmem _ hlast rfl
      exact hkey (List.mem_singleton.1 hlast ▸ hmem)

lemma WellKeyed.registerAll (h : r.WellKeyed) (calls : List (String × Command ν)) :
    (r.registerAll calls).WellKeyed := by
  induction calls generalizing r with
  | nil => exact h
  | cons call calls ih => exact ih (h.registering call)

/-- Some commands under their keys, as calls. -/
def callsOf (commands : List (List Char × Command ν)) : List (String × Command ν) :=
  commands.map fun c => (String.ofList c.1, c.2)

/-- Commands whose keys are in order are what registering them one by one comes to. -/
lemma registerAll_callsOf {before after : List (List Char × Command ν)}
    (h : WellKeyed ⟨before ++ after⟩) :
    (⟨before⟩ : Registry ν).registerAll (callsOf after) = ⟨before ++ after⟩ := by
  induction after generalizing before with
  | nil => rw [List.append_nil]; rfl
  | cons c after ih =>
    have hlower : lower c.1 = c.1 := h.lower_eq _ (by simp [keys])
    have hnew : c.1 ∉ (⟨before⟩ : Registry ν).keys := by
      have hnodup := h.nodup
      simp only [keys, List.map_append, List.map_cons, List.nodup_append] at hnodup
      exact fun hmem => hnodup.2.2 _ hmem _ (.head _) rfl
    have hfirst : (⟨before⟩ : Registry ν).registering (String.ofList c.1, c.2) =
        ⟨before ++ [c]⟩ := by
      simp only [registering_eq, String.toList_ofList, hlower, if_neg hnew]
    have hsplit : before ++ c :: after = before ++ [c] ++ after := by simp
    rw [hsplit] at h ⊢
    rw [← ih h, ← hfirst]
    rfl

end Registry

/-! ### Statements that reach a command -/

/-- Compiling a text may hand a statement to a command: its first one, a later one, or one in a
body. -/
inductive Dispatched (r : Registry ν) : (text : List Char) → Command ν → Statement → Prop
  | first {text : List Char} {found : Located (Command ν) text}
      (h : locate r.find? Command.form text = .ok found) :
      Dispatched r text found.command found.statement
  | later {text : List Char} {found : Located (Command ν) text} {command : Command ν}
      {s : Statement} (h : locate r.find? Command.form text = .ok found)
      (hrest : Dispatched r found.rest command s) : Dispatched r text command s
  | within {text body : List Char} {found : Located (Command ν) text} {command : Command ν}
      {s : Statement} (h : locate r.find? Command.form text = .ok found)
      (hbody : found.statement.body = some body) (hinner : Dispatched r body command s) :
      Dispatched r text command s

/-- A keyword that can stand in front of a parenthesis in a text of normal form. -/
structure IsCallable (keyword : List Char) : Prop where
  visible : ∀ c ∈ keyword, isBlank c = false
  noOpening : '(' ∉ keyword
  noMarker : ¬ ['#', '#'] <:+: keyword

lemma isCallable_lower {keyword : List Char} : IsCallable (lower keyword) ↔ IsCallable keyword := by
  have hvisible : (∀ c ∈ lower keyword, isBlank c = false) ↔ ∀ c ∈ keyword, isBlank c = false := by
    constructor <;> intro h c hc <;> by_contra hblank <;> rw [Bool.not_eq_false] at hblank
    · simp [h c ((Caseless.of_isBlank hblank).mem_lowerAfter.2 hc)] at hblank
    · simp [h c ((Caseless.of_isBlank hblank).mem_lowerAfter.1 hc)] at hblank
  constructor
  · rintro ⟨h, hopening, hmarker⟩
    exact ⟨hvisible.1 h, fun hm => hopening (caseless_opening.mem_lowerAfter.2 hm),
      fun hm => hmarker (marker_infix_lowerAfter.2 hm)⟩
  · rintro ⟨h, hopening, hmarker⟩
    exact ⟨hvisible.2 h, fun hm => hopening (caseless_opening.mem_lowerAfter.1 hm),
      fun hm => hmarker (marker_infix_lowerAfter.1 hm)⟩

section

variable {r : Registry ν} {text rest : List Char} {command : Command ν} {s : Statement}

/-- What belongs to a statement stands in the text. -/
lemma Starts.isInfix (h : Starts r.find? Command.form text command s rest) :
    '(' ∉ s.keyword ∧ s.keyword <:+: text ∧ rest <:+: text ∧
      ∀ body, s.body = some body → body <:+: text := by
  cases h with
  | @simple keyword args rest _ hkeyword =>
    refine ⟨hkeyword, ⟨[], '(' :: args ++ ')' :: ';' :: rest, by simp [head]⟩,
      ⟨head keyword args ++ [';'], [], by simp⟩, ?_⟩
    rintro _ ⟨⟩
  | @block keyword args body rest _ hkeyword =>
    refine ⟨hkeyword,
      ⟨[], '(' :: args ++ ')' :: '\x7b' :: (body ++ '\x7d' :: rest), by simp [head]⟩,
      ⟨head keyword args ++ '\x7b' :: (body ++ ['\x7d']), [], by simp⟩, ?_⟩
    rintro _ ⟨⟩
    exact ⟨head keyword args ++ ['\x7b'], '\x7d' :: rest, by simp⟩
  | @blockSemicolon keyword args body rest _ hkeyword =>
    refine ⟨hkeyword,
      ⟨[], '(' :: args ++ ')' :: '\x7b' :: (body ++ '\x7d' :: ';' :: rest), by simp [head]⟩,
      ⟨head keyword args ++ '\x7b' :: (body ++ ['\x7d', ';']), [], by simp⟩, ?_⟩
    rintro _ ⟨⟩
    exact ⟨head keyword args ++ ['\x7b'], '\x7d' :: ';' :: rest, by simp⟩

lemma Dispatched.isInfix_keyword (h : Dispatched r text command s) :
    '(' ∉ s.keyword ∧ s.keyword <:+: text := by
  induction h with
  | first h =>
    obtain ⟨hopening, hkeyword, -⟩ := (Starts.of_locate h).isInfix
    exact ⟨hopening, hkeyword⟩
  | later h _ ih =>
    obtain ⟨-, -, hrest, -⟩ := (Starts.of_locate h).isInfix
    exact ⟨ih.1, ih.2.trans hrest⟩
  | within h hbody _ ih =>
    obtain ⟨-, -, -, hinner⟩ := (Starts.of_locate h).isInfix
    exact ⟨ih.1, ih.2.trans (hinner _ hbody)⟩

/-- In a text of normal form every keyword is callable. -/
lemma Dispatched.isCallable {scenario : String} (hnormal : normalize scenario = .ok text)
    (h : Dispatched r text command s) : IsCallable s.keyword := by
  obtain ⟨hblank, hmarker, -⟩ := normal_of_normalize hnormal
  obtain ⟨hopening, hwithin⟩ := h.isInfix_keyword
  exact ⟨fun c hc => hblank c (hwithin.subset hc), hopening, fun hm => hmarker (hm.trans hwithin)⟩

end

/-- What makes a statement of a keyword, without any parameters and without anything in a body. -/
def Form.call : Form → String
  | .simple => "();"
  | .block => "()\x7b\x7d"

/-- The statement that is a keyword and nothing else. -/
def Form.bare (form : Form) (keyword : List Char) : Statement where
  keyword
  text := keyword ++ form.call.toList
  args := []
  body := match form with | .simple => none | .block => some []

lemma starts_bare {r : Registry ν} {key : List Char} {command : Command ν}
    (hfind : r.find? key = some command) (hopening : '(' ∉ key) :
    Starts r.find? Command.form (command.form.bare key).text command (command.form.bare key)
      [] := by
  cases hform : command.form with
  | simple =>
    have h : Starts r.find? Command.form _ command _ [] :=
      .simple hopening hfind hform List.not_mem_nil
    simpa [Form.bare, Form.call, head] using h
  | block =>
    have h : Starts r.find? Command.form _ command _ [] :=
      .block hopening hfind hform List.not_mem_nil (balancedFrom_nil.2 rfl) (by simp)
    simpa [Form.bare, Form.call, head] using h

/-- The normal form of a callable keyword, in any spelling. A sigma at its end is final all the
same, because a parenthesis ends words. -/
lemma normalize_call {spelling : String} (h : IsCallable spelling.toList) (form : Form) :
    normalize (spelling ++ form.call) = .ok (form.bare (lower spelling.toList)).text := by
  have hopening : EndsWords '(' := by constructor <;> decide +kernel
  have hcall : ∃ tail, form.call.toList = '(' :: tail ∧ ('(' :: tail).all (!isBlank ·) = true ∧
      ¬ ['#', '#'] <:+: '(' :: tail ∧ 'Σ' ∉ '(' :: tail ∧
      ('(' :: tail).flatMap lowerChar = '(' :: tail := by
    cases form
    · exact ⟨");".toList, by decide⟩
    · exact ⟨")\x7b\x7d".toList, by decide⟩
  obtain ⟨tail, hcall, hblank, hmarker, hsigma, hsmall⟩ := hcall
  have htext : (spelling ++ form.call).toList = spelling.toList ++ '(' :: tail := by
    rw [String.toList_append, hcall]
  have hlower : lower (spelling.toList ++ '(' :: tail) = lower spelling.toList ++ '(' :: tail := by
    rw [lower, lowerAfter_append hopening, lowerAfter_of_not_mem hsigma, hsmall, lower]
  have hbare : (form.bare (lower spelling.toList)).text = lower spelling.toList ++ '(' :: tail := by
    simp only [Form.bare, hcall]
  rw [normalize_of_not_marker, htext, hlower, hbare]
  · rw [htext, List.forall_mem_append]
    exact ⟨h.visible, by simpa using hblank⟩
  · rw [htext]
    exact not_marker_infix_append h.noMarker (by simp) hmarker

/-! ### Registries -/

/-- Compiling the text hands a statement of the keyword to the command at some place. -/
def Registry.Reaches (r : Registry ν) (text : String) (command : Command ν) (key : List Char) :
    Prop :=
  ∃ s statement, normalize text = .ok s ∧ Dispatched r s command statement ∧
    statement.keyword = key

/-- Compiling the text is handing the statement to the command, and nothing else. -/
def Registry.Hands (r : Registry ν) (text : String) (command : Command ν) (s : Statement) : Prop :=
  normalize text = .ok s.text ∧
    r.compileBlock s.text = command.handler s (s.body.map r.compileBlock) >>= fun unit =>
      unit.elim (pure ()) Drafting.emit

/-- What is known of a registry after some calls. -/
structure Orderly (start : Registry ν) (calls : List (String × Command ν)) (r : Registry ν) :
    Prop where
  lower_eq : ∀ key ∈ r.keys, lower key = key
  nodup : r.keys.Nodup
  /-- A key that was not there at the start belongs to its first call, whatever the spelling. -/
  find?_eq : ∀ key, r.find? key = (start.find? key).or (Registry.firstCommand calls key)
  enter_eq_error : ∀ keyword command e, (r.enter keyword command).1 = .error e ↔
    lower keyword.toList ∈ r.keys ∧ e = .duplicateCommand (String.ofList (lower keyword.toList))
  /-- A call that fails leaves the registry as it is. -/
  unchanged : ∀ keyword command e, (r.enter keyword command).1 = .error e →
    (r.enter keyword command).2 = r
  register_eq_error : ∀ keyword command e, r.register keyword command = .error e ↔
    (r.enter keyword command).1 = .error e
  /-- A keyword that was registered reaches its command in every spelling if it is callable, and
  in none if it is not. -/
  reaches : ∀ before keyword command after, calls = before ++ (keyword, command) :: after →
    ((start.registerAll before).enter keyword command).1 = .ok () →
    ∀ spelling : String, lower spelling.toList = lower keyword.toList →
      (r.Reaches (spelling ++ command.form.call) command (lower keyword.toList) ↔
        IsCallable keyword.toList) ∧
      (IsCallable keyword.toList → r.Hands (spelling ++ command.form.call) command
        (command.form.bare (lower keyword.toList)))

namespace Registry

variable {r : Registry ν} {calls before after : List (String × Command ν)} {keyword : String}
  {command : Command ν}

/-- A keyword keeps the command that it was registered with. -/
lemma find?_of_registered (after : List (String × Command ν))
    (h : ((r.registerAll before).enter keyword command).1 = .ok ()) :
    (r.registerAll (before ++ (keyword, command) :: after)).find? (lower keyword.toList) =
      some command := by
  have hnone := find?_eq_none.2 (enter_eq_ok.1 h)
  have hsplit : r.registerAll (before ++ (keyword, command) :: after) =
      ((r.registerAll before).registering (keyword, command)).registerAll after :=
    registerAll_append _ _ _
  rw [hsplit, find?_registerAll, find?_registering, hnone]
  simp

/-- A callable key is handed its statements. -/
lemma hands_of_find? {spelling : String} (hspelling : IsCallable spelling.toList)
    (hfind : r.find? (lower spelling.toList) = some command) :
    r.Hands (spelling ++ command.form.call) command
      (command.form.bare (lower spelling.toList)) :=
  ⟨normalize_call hspelling _,
    (starts_bare hfind (isCallable_lower.2 hspelling).noOpening).compileBlock_alone⟩

lemma reaches_of_find? {spelling : String} (hspelling : IsCallable spelling.toList)
    (hfind : r.find? (lower spelling.toList) = some command) :
    r.Reaches (spelling ++ command.form.call) command (lower spelling.toList) := by
  obtain ⟨found, hfound, hcommand, hstatement, -⟩ :=
    (starts_bare hfind (isCallable_lower.2 hspelling).noOpening).exists_locate
  have hfirst := Dispatched.first hfound
  rw [hcommand, hstatement] at hfirst
  exact ⟨_, _, normalize_call hspelling _, hfirst, rfl⟩

lemma orderly_registerAll {start : Registry ν} (h : start.WellKeyed)
    (calls : List (String × Command ν)) : Orderly start calls (start.registerAll calls) where
  lower_eq := (h.registerAll calls).lower_eq
  nodup := (h.registerAll calls).nodup
  find?_eq := find?_registerAll start calls
  enter_eq_error keyword command e := enter_eq_error
  unchanged keyword command e herror := by
    rw [enter_eq, if_pos (enter_eq_error.1 herror).1]
  register_eq_error keyword command e := register_eq_error
  reaches before keyword command after hcalls hregistered spelling hspelling := by
    subst hcalls
    have hfind := find?_of_registered after hregistered
    have hcallable : IsCallable spelling.toList ↔ IsCallable keyword.toList := by
      rw [← isCallable_lower, hspelling, isCallable_lower]
    rw [← hspelling] at hfind ⊢
    refine ⟨⟨?_, fun h => reaches_of_find? (hcallable.2 h) hfind⟩, fun h =>
      hands_of_find? (hcallable.2 h) hfind⟩
    rintro ⟨s, statement, hnormal, hdispatched, hkeyword⟩
    have hlower := hdispatched.isCallable hnormal
    rw [hkeyword, isCallable_lower] at hlower
    exact hcallable.1 hlower

/-- Whatever is registered, in whatever order. The built-in commands stand as if they had been
registered first. -/
theorem registerAll_orderly (calls : List (String × Command ν)) :
    Orderly empty calls (empty.registerAll calls) ∧
      Orderly empty (callsOf builtin.commands ++ calls) (builtin.registerAll calls) := by
  refine ⟨orderly_registerAll wellKeyed_empty calls, ?_⟩
  have hbuiltin : (empty : Registry ν).registerAll (callsOf builtin.commands) = builtin :=
    @registerAll_callsOf ν [] builtin.commands wellKeyed_builtin
  have hall : (empty : Registry ν).registerAll (callsOf builtin.commands ++ calls) =
      builtin.registerAll calls := by
    rw [registerAll_append, hbuiltin]
  rw [← hall]
  exact orderly_registerAll wellKeyed_empty _

/-- The last sigma of a keyword is a final one, however it is written. -/
example :
    ((builtin : Registry Empty).registerAll [("ΟΔΟΣ", .unit fun _ => .ok .waitForAll)]).compile
      "Οδος ();" = .ok #[.waitForAll] := by
  decide +kernel

end Registry

end LoadTest
