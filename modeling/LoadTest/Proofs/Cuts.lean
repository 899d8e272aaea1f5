import LoadTest.Proofs.Location
import LoadTest.Scenario.Compile
import Mathlib.Data.List.Chain
import Mathlib.Data.List.Infix

/-!
# Where a text is cut into statements

The first statement of a text, for any registry of commands: when there is one, which parts of the
text its own parts are, and at which offsets in bytes the text is cut. The braces of a block are
followed by counting, and as long as a block is read at least one brace is open. Statements and
bodies get shorter and shorter, so that no text has statements without end.
-/

namespace LoadTest

open Text

variable {ν : Type}

/-! ### Braces -/

/-- The braces of a text come out even. -/
def BracesEven (s : List Char) : Prop := s.count '\x7b' = s.count '\x7d'

/-- The braces of a text come out even at its end, and at no place before. -/
def IsBlock (s : List Char) : Prop :=
  BracesEven s ∧ ∀ p, p <+: s → p ≠ [] → p ≠ s → ¬ BracesEven p

/-- Behind a first brace that is open, a brace stays open until the braces come out even. -/
lemma count_lt_of_not_bracesEven {s p : List Char} (hp : p <+: '\x7b' :: s) (hne : p ≠ [])
    (heven : ∀ q, q <+: p → q ≠ [] → ¬ BracesEven q) : p.count '\x7d' < p.count '\x7b' := by
  induction p using List.reverseRecOn with
  | nil => exact absurd rfl hne
  | append_singleton p c ih =>
    have hshort : p <+: p ++ [c] := List.prefix_append p [c]
    cases p with
    | nil =>
      obtain ⟨rfl, -⟩ := List.cons_prefix_cons.1 hp
      decide
    | cons x p =>
      have hlt := ih (hshort.trans hp) (by simp) fun q hq => heven q (hq.trans hshort)
      have hall := heven (x :: p ++ [c]) (List.prefix_refl _) (by simp)
      rw [BracesEven, List.count_append, List.count_append] at hall
      rw [List.count_append, List.count_append]
      have hone : [c].count '\x7d' ≤ 1 := List.count_le_length
      omega

/-- The braces of a body match exactly if those of its block come out even at its end first. -/
lemma isBlock_iff_balanced {body : List Char} :
    IsBlock ('\x7b' :: body ++ ['\x7d']) ↔ Balanced body := by
  have hopen : ∀ p : List Char, ('\x7b' :: p).count '\x7b' = p.count '\x7b' + 1 := fun p =>
    List.count_cons_self
  have hclose : ∀ p : List Char, ('\x7b' :: p).count '\x7d' = p.count '\x7d' := fun p =>
    List.count_cons_of_ne (by decide)
  have hblock : BracesEven ('\x7b' :: body ++ ['\x7d']) ↔
      body.count '\x7d' = 0 + body.count '\x7b' := by
    rw [BracesEven, List.count_append, List.count_append, hopen, hclose, List.count_singleton_self,
      List.count_singleton]
    simp
    omega
  constructor
  · rintro ⟨heven, hfirst⟩
    refine ⟨fun p hp => ?_, hblock.1 heven⟩
    have hprefix : '\x7b' :: p <+: '\x7b' :: body := List.cons_prefix_cons.2 ⟨rfl, hp⟩
    have hlt := count_lt_of_not_bracesEven hprefix (by simp) fun q hq hne => by
      have hle := (hq.trans hprefix).length_le
      refine hfirst q ((hq.trans hprefix).trans (List.prefix_append _ _)) hne ?_
      rintro rfl
      simp only [List.length_append, List.length_cons, List.length_nil] at hle
      omega
    rw [hopen, hclose] at hlt
    omega
  · rintro ⟨hbody, htotal⟩
    refine ⟨hblock.2 htotal, fun p hp hne hshort heven => ?_⟩
    obtain h | h := List.prefix_concat_iff.1 hp
    · exact hshort h
    · obtain ⟨c, q, rfl⟩ := List.exists_cons_of_ne_nil hne
      obtain ⟨rfl, hq⟩ := List.cons_prefix_cons.1 h
      have hle := hbody q hq
      rw [BracesEven, hopen, hclose] at heven
      omega

/-- Braces that come out even somewhere do so somewhere for the first time. -/
lemma exists_isBlock {s p : List Char} (hp : p <+: s) (hne : p ≠ []) (heven : BracesEven p) :
    ∃ block, block <+: s ∧ block ≠ [] ∧ IsBlock block := by
  induction hlength : p.length using Nat.strong_induction_on generalizing p with
  | _ n ih =>
    by_cases hfirst : ∀ q, q <+: p → q ≠ [] → q ≠ p → ¬ BracesEven q
    · exact ⟨p, hp, hne, heven, hfirst⟩
    · simp only [not_forall, not_not] at hfirst
      obtain ⟨q, hq, hqne, hqp, hqeven⟩ := hfirst
      have hlt : q.length < n := by
        refine hlength ▸ Nat.lt_of_le_of_ne hq.length_le fun heq => hqp ?_
        exact hq.eq_of_length heq
      exact ih q.length hlt (hq.trans hp) hqne hqeven rfl

/-- A text that opens with a brace and comes out even at its end is a block. -/
lemma IsBlock.exists_body {block s : List Char} (h : IsBlock block) (hne : block ≠ [])
    (hs : block <+: '\x7b' :: s) : ∃ body, block = '\x7b' :: body ++ ['\x7d'] := by
  obtain ⟨heven, hfirst⟩ := h
  obtain rfl | ⟨q, c, rfl⟩ := block.eq_nil_or_concat'
  · exact absurd rfl hne
  cases q with
  | nil =>
    obtain ⟨rfl, -⟩ := List.cons_prefix_cons.1 hs
    exact absurd heven (by simp [BracesEven])
  | cons x body =>
    obtain ⟨rfl, -⟩ := List.cons_prefix_cons.1 hs
    have hshort : '\x7b' :: body <+: '\x7b' :: body ++ [c] := List.prefix_append _ _
    have hopen := count_lt_of_not_bracesEven (hshort.trans hs) (by simp) fun q hq hqne => by
      refine hfirst q (hq.trans hshort) hqne ?_
      rintro rfl
      have hle := hq.length_le
      simp only [List.length_append, List.length_cons, List.length_nil] at hle
      omega
    refine ⟨body, ?_⟩
    rw [BracesEven, List.count_append, List.count_append, List.count_singleton,
      List.count_singleton] at heven
    by_cases hc : c = '\x7d'
    · rw [hc]
    · have hzero : (if c == '\x7d' then 1 else 0) = 0 := by simp [hc]
      omega

/-- As long as the end of a block is looked for, one of its braces is open. -/
lemma count_lt_of_closeBlock {inner p : List Char} (hp : p <+: inner)
    (hread : ∀ body rest, closeBlock 0 inner = some (body, rest) → p <+: body) :
    ('\x7b' :: p).count '\x7d' < ('\x7b' :: p).count '\x7b' := by
  refine count_lt_of_not_bracesEven (List.prefix_refl _) (by simp) fun q hq hne heven => ?_
  obtain ⟨block, hblock, hblockne, hfirst⟩ := exists_isBlock hq hne heven
  obtain ⟨body, rfl⟩ := hfirst.exists_body hblockne hblock
  obtain ⟨rest, hrest⟩ := hblock.trans (List.cons_prefix_cons.2 ⟨rfl, hp⟩)
  have hinner : inner = body ++ '\x7d' :: rest := by simpa using hrest.symm
  have hclose : closeBlock 0 inner = some (body, rest) :=
    closeBlock_eq_some.2 ⟨hinner, isBlock_iff_balanced.1 hfirst⟩
  have hlong := hblock.length_le
  have hle := (hread body rest hclose).length_le
  simp only [List.length_append, List.length_cons, List.length_nil] at hlong
  omega

/-! ### Parts -/

/-- How the end of a statement follows the closing parenthesis: the body of a block, the characters
with which the statement ends, and what is left. A semicolon right after a block belongs to it. -/
inductive Ends : Form → (tail : List Char) → (body : Option (List Char)) →
    (ending rest : List Char) → Prop
  | simple {rest : List Char} : Ends .simple (';' :: rest) none [';'] rest
  | block {body rest : List Char} (hblock : IsBlock ('\x7b' :: body ++ ['\x7d']))
      (hrest : rest.head? ≠ some ';') :
      Ends .block ('\x7b' :: body ++ '\x7d' :: rest) (some body) ('\x7b' :: body ++ ['\x7d']) rest
  | blockSemicolon {body rest : List Char} (hblock : IsBlock ('\x7b' :: body ++ ['\x7d'])) :
      Ends .block ('\x7b' :: body ++ '\x7d' :: ';' :: rest) (some body)
        ('\x7b' :: body ++ ['\x7d', ';']) rest

/-- What a command of a form looks for behind the closing parenthesis: a semicolon, or a brace with
one that matches it. -/
def Form.FindsEnd : Form → (tail : List Char) → Prop
  | .simple, tail => tail.head? = some ';'
  | .block, tail =>
    tail.head? = some '\x7b' ∧ ∃ block, block <+: tail ∧ block ≠ [] ∧ BracesEven block

lemma Form.findsEnd_iff {form : Form} {tail : List Char} :
    form.FindsEnd tail ↔ ∃ body ending rest, Ends form tail body ending rest := by
  constructor
  · intro h
    cases form with
    | simple =>
      obtain ⟨rest, rfl⟩ := List.head?_eq_some_iff.1 h
      exact ⟨none, [';'], rest, .simple⟩
    | block =>
      obtain ⟨hhead, p, hp, hne, heven⟩ := h
      obtain ⟨inner, rfl⟩ := List.head?_eq_some_iff.1 hhead
      obtain ⟨block, hblock, hblockne, hfirst⟩ := exists_isBlock hp hne heven
      obtain ⟨body, rfl⟩ := hfirst.exists_body hblockne hblock
      obtain ⟨rest, hrest⟩ := hblock
      rw [← hrest, List.append_assoc, List.singleton_append]
      by_cases hsemicolon : rest.head? = some ';'
      · obtain ⟨rest, rfl⟩ := List.head?_eq_some_iff.1 hsemicolon
        exact ⟨_, _, _, .blockSemicolon hfirst⟩
      · exact ⟨_, _, _, .block hfirst hsemicolon⟩
  · rintro ⟨body, ending, rest, h⟩
    cases h with
    | simple => rfl
    | @block body rest hblock hrest =>
      refine ⟨rfl, _, ?_, by simp, hblock.1⟩
      exact ⟨rest, by simp⟩
    | @blockSemicolon body rest hblock =>
      refine ⟨rfl, _, ?_, by simp, hblock.1⟩
      exact ⟨';' :: rest, by simp⟩

/-- The head of a statement of a registered command stands in front of a text: its keyword, and its
arguments in parentheses. -/
structure Registry.Heads (r : Registry ν) (input keyword args tail : List Char)
    (command : Command ν) : Prop where
  input_eq : input = keyword ++ '(' :: args ++ ')' :: tail
  registered : r.find? keyword = some command
  not_mem_keyword : '(' ∉ keyword
  not_mem_args : ')' ∉ args

/-- A text starts with a statement if the head of one stands there, and then its end. -/
lemma starts_iff_heads {r : Registry ν} {input rest : List Char} {command : Command ν}
    {s : Statement} :
    Starts r.find? Command.form input command s rest ↔ ∃ tail ending,
      r.Heads input s.keyword s.args tail command ∧ Ends command.form tail s.body ending rest ∧
        s.text = head s.keyword s.args ++ ending := by
  constructor
  · intro h
    cases h with
    | simple hkeyword hfind hform hargs =>
      rw [hform]
      exact ⟨_, _, ⟨by simp [head], hfind, hkeyword, hargs⟩, .simple, rfl⟩
    | block hkeyword hfind hform hargs hbody hrest =>
      rw [hform]
      exact ⟨_, _, ⟨by simp [head], hfind, hkeyword, hargs⟩,
        .block (isBlock_iff_balanced.2 hbody) hrest, rfl⟩
    | blockSemicolon hkeyword hfind hform hargs hbody =>
      rw [hform]
      exact ⟨_, _, ⟨by simp [head], hfind, hkeyword, hargs⟩,
        .blockSemicolon (isBlock_iff_balanced.2 hbody), rfl⟩
  · obtain ⟨keyword, text, args, body⟩ := s
    rintro ⟨tail, ending, ⟨rfl, hfind, hkeyword, hargs⟩, hends, htext⟩
    simp only at hfind hkeyword hargs hends htext ⊢
    subst htext
    have hinput : keyword ++ '(' :: args ++ ')' :: tail = head keyword args ++ tail := by
      simp [head]
    rw [hinput]
    generalize hform : command.form = form at hends
    cases hends with
    | simple => exact .simple hkeyword hfind hform hargs
    | block hblock hrest =>
      exact .block hkeyword hfind hform hargs (isBlock_iff_balanced.1 hblock) hrest
    | blockSemicolon hblock =>
      exact .blockSemicolon hkeyword hfind hform hargs (isBlock_iff_balanced.1 hblock)

/-! ### Offsets -/

/-- The number of bytes of a text. -/
def byteSize (s : List Char) : Nat := (String.ofList s).utf8ByteSize

/-- A character of a text starts at an offset in bytes, or the text ends there. -/
def IsBoundary (text : List Char) (offset : Nat) : Prop :=
  (String.Pos.Raw.mk offset).IsValid (String.ofList text)

/-- A text may be cut at two offsets in bytes, and `part` is what stands between them. -/
structure IsSlice (text : List Char) (start stop : Nat) (part : List Char) : Prop where
  boundary_start : IsBoundary text start
  boundary_stop : IsBoundary text stop
  start_le_stop : start ≤ stop
  extract_eq : (String.ofList text).toByteArray.extract start stop =
    (String.ofList part).toByteArray

@[simp] lemma byteSize_nil : byteSize [] = 0 := rfl

@[simp] lemma byteSize_append (s t : List Char) : byteSize (s ++ t) = byteSize s + byteSize t := by
  rw [byteSize, String.ofList_append, String.utf8ByteSize_append, byteSize, byteSize]

lemma byteSize_cons (c : Char) (s : List Char) : byteSize (c :: s) = byteSize [c] + byteSize s :=
  byteSize_append [c] s

lemma IsBoundary.of_append {text before after : List Char} (h : text = before ++ after) :
    IsBoundary text (byteSize before) :=
  String.Pos.Raw.isValid_iff_exists_append.2
    ⟨String.ofList before, String.ofList after, by rw [h, String.ofList_append], rfl⟩

lemma IsSlice.of_append {text : List Char} (before part after : List Char)
    (h : text = before ++ part ++ after) :
    IsSlice text (byteSize before) (byteSize before + byteSize part) part where
  boundary_start := .of_append (h.trans (List.append_assoc _ _ _))
  boundary_stop := by
    rw [← byteSize_append]
    exact .of_append h
  start_le_stop := Nat.le_add_right _ _
  extract_eq := by
    have hsize (s : List Char) : byteSize s = (String.ofList s).toByteArray.size :=
      String.size_toByteArray.symm
    rw [h, List.append_assoc, String.ofList_append, String.ofList_append, String.toByteArray_append,
      String.toByteArray_append, hsize, hsize]
    calc ((String.ofList before).toByteArray ++
            ((String.ofList part).toByteArray ++ (String.ofList after).toByteArray)).extract
            ((String.ofList before).toByteArray.size + 0)
            ((String.ofList before).toByteArray.size + (String.ofList part).toByteArray.size)
        = ((String.ofList part).toByteArray ++ (String.ofList after).toByteArray).extract 0
            (String.ofList part).toByteArray.size := ByteArray.extract_append_size_add
      _ = (String.ofList part).toByteArray := ByteArray.extract_append_eq_left rfl

/-- A text may be cut on both sides of a character of one byte. -/
lemma isBoundary_of_cons {text before after : List Char} {c : Char} (hc : byteSize [c] = 1)
    (h : text = before ++ c :: after) :
    IsBoundary text (byteSize before) ∧ IsBoundary text (byteSize before + 1) := by
  have h' : text = before ++ [c] ++ after := by simp [h]
  have hslice := IsSlice.of_append before [c] after h'
  rw [hc] at hslice
  exact ⟨hslice.boundary_start, hslice.boundary_stop⟩

/-! ### The first statement -/

section

variable {r : Registry ν} {input : List Char}

/-- A statement, its body and what is left are cut out of the text behind the head and the end. -/
structure Located.IsCut {κ : Type} {input : List Char} (l : Located κ input) : Prop where
  body : ∀ body, l.statement.body = some body →
    IsSlice input (byteSize (head l.statement.keyword l.statement.args) + 1)
      (byteSize (head l.statement.keyword l.statement.args) + 1 + byteSize body) body
  text : IsSlice input 0 (byteSize l.statement.text) l.statement.text
  rest : IsSlice input (byteSize l.statement.text) (byteSize input) l.rest

/-- A text is what is left behind a statement of another, or is its body. -/
def Registry.Descends (r : Registry ν) (text text' : List Char) : Prop :=
  ∃ l, locate r.find? Command.form text = .ok l ∧
    (text' = l.rest ∨ l.statement.body = some text')

lemma Registry.Descends.lt {text text' : List Char} (h : r.Descends text text') :
    text'.length < text.length := by
  obtain ⟨l, -, rfl | hbody⟩ := h
  · exact l.rest_lt
  · exact l.body_lt_input hbody

lemma Registry.length_le_of_isChain {texts : List (List Char)}
    (h : List.IsChain r.Descends (input :: texts)) : texts.length ≤ input.length := by
  induction texts generalizing input with
  | nil => exact Nat.zero_le _
  | cons text texts ih =>
    obtain ⟨hfirst, hchain⟩ := List.isChain_cons_cons.1 h
    have hlt := hfirst.lt
    have hle := ih hchain
    rw [List.length_cons]
    omega

/-- The body of a block stands behind its first brace. -/
lemma Ends.exists_of_body {form : Form} {tail ending rest body : List Char}
    (h : Ends form tail (some body) ending rest) :
    ∃ after, ending = '\x7b' :: body ++ after := by
  cases h
  · exact ⟨['\x7d'], rfl⟩
  · exact ⟨['\x7d', ';'], rfl⟩

lemma heads_of_locate {l : Located (Command ν) input}
    (h : locate r.find? Command.form input = .ok l) :
    ∃ tail ending, r.Heads input l.statement.keyword l.statement.args tail l.command ∧
      Ends l.command.form tail l.statement.body ending l.rest ∧
        l.statement.text = head l.statement.keyword l.statement.args ++ ending :=
  starts_iff_heads.1 (exists_locate_iff_starts.1 ⟨l, h, rfl, rfl, rfl⟩)

/-- The head of a statement is cut at its parentheses, whether or not its end is found. -/
structure IsHeadCut (input keyword args tail : List Char) : Prop where
  isSlice_keyword : IsSlice input 0 (byteSize keyword) keyword
  isSlice_args : IsSlice input (byteSize keyword + 1) (byteSize keyword + 1 + byteSize args) args
  isSlice_tail : IsSlice input (byteSize keyword + 1 + byteSize args + 1) (byteSize input) tail

lemma byteSize_head (keyword args : List Char) :
    byteSize (head keyword args) = byteSize keyword + 1 + byteSize args + 1 := by
  have hopening : byteSize ['('] = 1 := by decide
  have hclosing : byteSize [')'] = 1 := by decide
  rw [head, byteSize_append, byteSize_append, byteSize_cons, hopening, hclosing, Nat.add_assoc]
  omega

lemma Registry.Heads.isHeadCut {keyword args tail : List Char} {command : Command ν}
    (h : r.Heads input keyword args tail command) : IsHeadCut input keyword args tail := by
  have hinput := h.input_eq
  constructor
  case isSlice_keyword =>
    have hslice : IsSlice input _ _ _ := .of_append [] keyword ('(' :: args ++ ')' :: tail)
      (by simp [hinput])
    rwa [byteSize_nil, Nat.zero_add] at hslice
  case isSlice_args =>
    have hslice : IsSlice input _ _ _ := .of_append (keyword ++ ['(']) args (')' :: tail)
      (by simp [hinput])
    have hparen : byteSize ['('] = 1 := by decide
    rwa [byteSize_append, hparen] at hslice
  case isSlice_tail =>
    have hhead : input = head keyword args ++ tail := by simp [hinput, head]
    have hslice : IsSlice input _ _ _ := .of_append (head keyword args) tail [] (by simp [hhead])
    rwa [← byteSize_append, ← hhead, byteSize_head] at hslice

lemma isCut_of_locate {l : Located (Command ν) input}
    (h : locate r.find? Command.form input = .ok l) : l.IsCut := by
  obtain ⟨tail, ending, hheads, hends, htext⟩ := heads_of_locate h
  constructor
  case body =>
    intro body hbody
    obtain ⟨after, hending⟩ := (hbody ▸ hends).exists_of_body
    have hslice : IsSlice input _ _ _ := .of_append
      (head l.statement.keyword l.statement.args ++ ['\x7b']) body
      (after ++ l.rest) (by simp [← l.text_append_rest, htext, hending])
    have hbrace : byteSize ['\x7b'] = 1 := by decide
    rwa [byteSize_append, hbrace] at hslice
  case text =>
    have hslice : IsSlice input _ _ _ :=
      .of_append [] l.statement.text l.rest l.text_append_rest.symm
    rwa [byteSize_nil, Nat.zero_add] at hslice
  case rest =>
    have hslice : IsSlice input _ _ _ := .of_append l.statement.text l.rest []
      (by rw [l.text_append_rest, List.append_nil])
    rwa [← byteSize_append, l.text_append_rest] at hslice

/-- A statement whose head stands in front of a text, and that has an end, is found. -/
lemma exists_locate_of_heads {keyword args tail : List Char} {command : Command ν}
    (hheads : r.Heads input keyword args tail command) (hfinds : command.form.FindsEnd tail) :
    ∃ l ending, locate r.find? Command.form input = .ok l ∧ l.command = command ∧
      l.statement.keyword = keyword ∧ l.statement.args = args ∧
        l.statement.text = head keyword args ++ ending ∧
          Ends command.form tail l.statement.body ending l.rest := by
  obtain ⟨body, ending, rest, hends⟩ := Form.findsEnd_iff.1 hfinds
  have hstarts : Starts r.find? Command.form input command
      ⟨keyword, head keyword args ++ ending, args, body⟩ rest :=
    starts_iff_heads.2 ⟨tail, ending, hheads, hends, rfl⟩
  obtain ⟨l, h, hcommand, hstatement, hrest⟩ := hstarts.exists_locate
  refine ⟨l, ending, h, hcommand, ?_⟩
  rw [hstatement, hrest]
  exact ⟨rfl, rfl, rfl, hends⟩

/-- A scan for the end of a block stands inside the braces that are open where it has come to. -/
lemma closeBlock_append {depth : Nat} {p : List Char} (s : List Char)
    (hopen : ∀ q, q <+: p → q.count '\x7d' ≤ depth + q.count '\x7b') :
    closeBlock depth (p ++ s) =
      (closeBlock (depth + p.count '\x7b' - p.count '\x7d') s).map fun q => (p ++ q.1, q.2) := by
  induction p generalizing depth with
  | nil => simp
  | cons c p ih =>
    -- A character that does not end the block only moves the scan to another depth.
    have hpass : ∀ d, (∀ q, q <+: p → q.count '\x7d' ≤ d + q.count '\x7b') →
        depth + (c :: p).count '\x7b' - (c :: p).count '\x7d' =
          d + p.count '\x7b' - p.count '\x7d' →
        (closeBlock d (p ++ s)).map (fun q => (c :: q.1, q.2)) =
          (closeBlock (depth + (c :: p).count '\x7b' - (c :: p).count '\x7d') s).map fun q =>
            (c :: p ++ q.1, q.2) := by
      intro d hd heq
      rw [ih hd, heq, Option.map_map]
      rfl
    have hcons : ∀ q, q <+: p → (c :: q).count '\x7d' ≤ depth + (c :: q).count '\x7b' :=
      fun q hq => hopen (c :: q) (List.cons_prefix_cons.2 ⟨rfl, hq⟩)
    rw [List.cons_append, closeBlock.eq_def]
    simp only
    split_ifs with ho hc
    · subst ho
      have hcount (q : List Char) : ('\x7b' :: q).count '\x7d' = q.count '\x7d' :=
        List.count_cons_of_ne (by decide)
      simp only [hcount, List.count_cons_self] at hcons hpass ⊢
      exact hpass _ (fun q hq => by have := hcons q hq; omega) (by omega)
    · subst hc
      have hcount (q : List Char) : ('\x7d' :: q).count '\x7b' = q.count '\x7b' :=
        List.count_cons_of_ne (by decide)
      simp only [hcount, List.count_cons_self] at hcons hpass ⊢
      have hpos := hcons [] List.nil_prefix
      cases depth with
      | zero => simp at hpos
      | succ depth => exact hpass _ (fun q hq => by have := hcons q hq; omega) (by omega)
    · simp only [List.count_cons_of_ne ho, List.count_cons_of_ne hc] at hcons hpass ⊢
      exact hpass _ hcons rfl

/-- The first statement of a text is found if there is one, and its parts are cut out exactly. -/
structure Registry.LocatesFirst (r : Registry ν) (input : List Char) : Prop where
  found_iff : (∃ l, locate r.find? Command.form input = .ok l) ↔
    ∃ keyword args tail command, r.Heads input keyword args tail command ∧
      command.form.FindsEnd tail
  parts : ∀ keyword args tail command, r.Heads input keyword args tail command →
    command.form.FindsEnd tail → ∃ l ending, locate r.find? Command.form input = .ok l ∧
      l.command = command ∧ l.statement.keyword = keyword ∧ l.statement.args = args ∧
        l.statement.text = head keyword args ++ ending ∧
          Ends command.form tail l.statement.body ending l.rest
  text_append_rest : ∀ l, locate r.find? Command.form input = .ok l →
    l.statement.text ++ l.rest = input
  body_lt : ∀ l body, locate r.find? Command.form input = .ok l → l.statement.body = some body →
    body.length < l.statement.text.length
  rest_lt : ∀ l, locate r.find? Command.form input = .ok l → l.rest.length < input.length
  /-- No loop over statements and no nesting of blocks goes on without end. -/
  descent : ∀ texts, List.IsChain r.Descends (input :: texts) → texts.length ≤ input.length
  head_cuts : ∀ keyword args tail command, r.Heads input keyword args tail command →
    IsHeadCut input keyword args tail
  cuts : ∀ l, locate r.find? Command.form input = .ok l → l.IsCut
  /-- Whatever is searched for, the text may be cut before and behind it. -/
  boundaries : ∀ before c after, input = before ++ c :: after →
    c ∈ ['(', ')', ';', '\x7b', '\x7d'] →
      IsBoundary input (byteSize before) ∧ IsBoundary input (byteSize before + 1)
  /-- As long as a block is read, one of its braces is open. -/
  depth : ∀ before p s, input = before ++ '\x7b' :: (p ++ s) →
    (∀ body rest, closeBlock 0 (p ++ s) = some (body, rest) → p <+: body) →
      ('\x7b' :: p).count '\x7d' < ('\x7b' :: p).count '\x7b' ∧
        closeBlock 0 (p ++ s) =
          (closeBlock (p.count '\x7b' - p.count '\x7d') s).map fun q => (p ++ q.1, q.2)

/-- Where the first statement of a text ends, and which text its parts are, is read off the text for
any registry. -/
theorem Registry.locates_first (r : Registry ν) (input : List Char) : r.LocatesFirst input where
  found_iff := by
    constructor
    · rintro ⟨l, h⟩
      obtain ⟨tail, ending, hheads, hends, -⟩ := heads_of_locate h
      exact ⟨_, _, tail, _, hheads, Form.findsEnd_iff.2 ⟨_, _, _, hends⟩⟩
    · rintro ⟨keyword, args, tail, command, hheads, hfinds⟩
      obtain ⟨l, -, h, -⟩ := exists_locate_of_heads hheads hfinds
      exact ⟨l, h⟩
  parts keyword args tail command := exists_locate_of_heads
  text_append_rest l _ := l.text_append_rest
  body_lt l body _ := l.body_lt body
  rest_lt l _ := l.rest_lt
  descent texts := Registry.length_le_of_isChain
  head_cuts keyword args tail command := Registry.Heads.isHeadCut
  cuts l := isCut_of_locate
  boundaries before c after h hc := by
    refine isBoundary_of_cons ?_ h
    simp only [List.mem_cons, List.not_mem_nil, or_false] at hc
    obtain rfl | rfl | rfl | rfl | rfl := hc <;> decide
  depth before p s _ hread := by
    have hopen : ∀ q, q <+: p → ('\x7b' :: q).count '\x7d' < ('\x7b' :: q).count '\x7b' :=
      fun q hq => count_lt_of_closeBlock (hq.trans (List.prefix_append p s))
        fun body rest h => hq.trans (hread body rest h)
    have hle : ∀ q, q <+: p → q.count '\x7d' ≤ 0 + q.count '\x7b' := fun q hq => by
      have hlt := hopen q hq
      rw [List.count_cons_self, List.count_cons_of_ne (by decide)] at hlt
      omega
    refine ⟨hopen p (List.prefix_refl p), ?_⟩
    rw [closeBlock_append s hle, Nat.zero_add]

end

end LoadTest
