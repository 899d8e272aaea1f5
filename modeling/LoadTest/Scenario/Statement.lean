import LoadTest.Scenario.Error
import LoadTest.Text.Split

/-!
# Statements

Finding the first statement of a normalized text. A simple statement is `keyword(args);`, a block is
`keyword(args){body}` with at most one semicolon after it. What is found and what is left make up
the text again, and both the body and the rest are shorter than it.
-/

namespace LoadTest

open Text

/-- How the end of a statement is found. -/
inductive Form where
  /-- `keyword(args);` -/
  | simple
  /-- `keyword(args){body}` -/
  | block
  deriving DecidableEq, Repr

/-- One located statement. `text` is all of it, its terminator included. -/
structure Statement where
  keyword : List Char
  text : List Char
  args : List Char
  body : Option (List Char)
  deriving DecidableEq, Repr

def Statement.malformed (s : Statement) (reason : Malformation) : CompileError :=
  .malformed (String.ofList s.text) reason

/-- The first statement of a text, the command that its keyword names, and what follows it. -/
structure Located (κ : Type) (input : List Char) where
  command : κ
  statement : Statement
  rest : List Char
  /-- Nothing is lost between a statement and the next one. -/
  text_append_rest : statement.text ++ rest = input
  text_ne_nil : statement.text ≠ []
  body_lt : ∀ b, statement.body = some b → b.length < statement.text.length

theorem Located.rest_lt {κ : Type} {input : List Char} (l : Located κ input) :
    l.rest.length < input.length := by
  have h := congrArg List.length l.text_append_rest
  have := List.length_pos_iff.2 l.text_ne_nil
  simp only [List.length_append] at h
  omega

theorem Located.body_lt_input {κ : Type} {input : List Char} (l : Located κ input)
    {b : List Char} (hb : l.statement.body = some b) : b.length < input.length := by
  have h := congrArg List.length l.text_append_rest
  have := l.body_lt b hb
  simp only [List.length_append] at h
  omega

/-- The text up to the first semicolon, or all of it. -/
def upToTerminator (s : List Char) : List Char :=
  match splitAtFirst ';' s with
  | some (a, _) => a ++ [';']
  | none => s

/-- Inside `depth + 1` open braces: the text before the brace that closes the outermost, and the
text after it. -/
def closeBlock : (depth : Nat) → List Char → Option (List Char × List Char)
  | _, [] => none
  | depth, c :: s =>
    if c = '\x7b' then (closeBlock (depth + 1) s).map fun p => (c :: p.1, p.2)
    else if c = '\x7d' then
      match depth with
      | 0 => some ([], s)
      | depth + 1 => (closeBlock depth s).map fun p => (c :: p.1, p.2)
    else (closeBlock depth s).map fun p => (c :: p.1, p.2)

theorem eq_of_closeBlock {depth : Nat} {s body rest : List Char}
    (h : closeBlock depth s = some (body, rest)) : s = body ++ '\x7d' :: rest := by
  induction s generalizing depth body with
  | nil => simp [closeBlock] at h
  | cons c s ih =>
    simp only [closeBlock] at h
    split at h
    · obtain ⟨p, hp, heq⟩ := Option.map_eq_some_iff.1 h
      cases heq
      simpa using ih hp
    · split at h
      · next hc =>
        cases depth with
        | zero => cases h; simp [hc]
        | succ depth =>
          obtain ⟨p, hp, heq⟩ := Option.map_eq_some_iff.1 h
          cases heq
          simpa using ih hp
      · obtain ⟨p, hp, heq⟩ := Option.map_eq_some_iff.1 h
        cases heq
        simpa using ih hp

/-- What stands before the body of a statement. -/
def head (keyword args : List Char) : List Char := keyword ++ '(' :: args ++ [')']

theorem head_append_append {keyword args ending rest tail input : List Char}
    (h : head keyword args ++ tail = input) (ht : tail = ending ++ rest) :
    (head keyword args ++ ending) ++ rest = input := by
  rw [List.append_assoc, ← ht, h]

theorem head_append_ne_nil (keyword args ending : List Char) :
    head keyword args ++ ending ≠ [] := by
  simp [head]

/-- A block ends with its brace. -/
theorem block_eq {inner body rest : List Char} (h : closeBlock 0 inner = some (body, rest)) :
    '\x7b' :: inner = ('\x7b' :: body ++ ['\x7d']) ++ rest := by
  simp [eq_of_closeBlock h]

/-- A semicolon after a block belongs to it. -/
theorem block_semicolon_eq {inner body rest : List Char}
    (h : closeBlock 0 inner = some (body, ';' :: rest)) :
    '\x7b' :: inner = ('\x7b' :: body ++ ['\x7d', ';']) ++ rest := by
  simp [eq_of_closeBlock h]

/-- The body of a block is shorter than the block. -/
theorem body_lt_block {start body ending b : List Char} (h : some body = some b) :
    b.length < (start ++ ('\x7b' :: body ++ ending)).length := by
  cases h
  simp only [List.length_append, List.length_cons]
  omega

/-- Locate the end of a statement of `input` whose head has been read. `tail` follows the head. -/
def locateEnd {κ : Type} {input : List Char} (command : κ) (form : Form)
    (keyword args tail : List Char) (hinput : head keyword args ++ tail = input) :
    Except CompileError (Located κ input) :=
  let malformed reason := .error (.malformed (String.ofList input) reason)
  match form, tail, hinput with
  | .simple, ';' :: rest, hinput =>
    .ok
      { command, rest
        statement := ⟨keyword, head keyword args ++ [';'], args, none⟩
        text_append_rest := head_append_append hinput rfl
        text_ne_nil := head_append_ne_nil _ _ _
        body_lt := fun _ h => nomatch h }
  | .simple, _, _ => malformed .noSemicolon
  | .block, '\x7b' :: inner, hinput =>
    match h : closeBlock 0 inner with
    | none => malformed .unclosedBlock
    | some (body, ';' :: rest) =>
      .ok
        { command, rest
          statement :=
            ⟨keyword, head keyword args ++ ('\x7b' :: body ++ ['\x7d', ';']), args, some body⟩
          text_append_rest := head_append_append hinput (block_semicolon_eq h)
          text_ne_nil := head_append_ne_nil _ _ _
          body_lt := fun _ => body_lt_block }
    | some (body, rest) =>
      .ok
        { command, rest
          statement := ⟨keyword, head keyword args ++ ('\x7b' :: body ++ ['\x7d']), args, some body⟩
          text_append_rest := head_append_append hinput (block_eq h)
          text_ne_nil := head_append_ne_nil _ _ _
          body_lt := fun _ => body_lt_block }
  | .block, _, _ => malformed .noBrace

/-- Locate the first statement of a text. The keyword is what stands before the first parenthesis,
and it decides how the statement ends. -/
def locate {κ : Type} (find? : List Char → Option κ) (form : κ → Form) (input : List Char) :
    Except CompileError (Located κ input) :=
  let malformed reason := .error (.malformed (String.ofList input) reason)
  match hk : splitAtFirst '(' input with
  | none => malformed .noOpening
  | some (keyword, afterKeyword) =>
    match find? keyword with
    | none =>
      .error (.unknownCommand (String.ofList keyword) (String.ofList (upToTerminator input)))
    | some command =>
      match ha : splitAtFirst ')' afterKeyword with
      | none => malformed .noClosing
      | some (args, tail) =>
        locateEnd command (form command) keyword args tail
          (by rw [(splitAtFirst_eq_some.1 hk).1, (splitAtFirst_eq_some.1 ha).1]; simp [head])

end LoadTest
