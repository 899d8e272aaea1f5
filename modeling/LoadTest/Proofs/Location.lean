import LoadTest.Proofs.Braces
import Mathlib.Data.Nat.Init

/-!
# Where statements stand

`Starts` says what it is for a text to start with a statement of some set of commands, and locating
the first statement of a text succeeds exactly if the text starts with one.
-/

namespace LoadTest

open Text

variable {κ : Type} {find? : List Char → Option κ} {form : κ → Form}

/-- A text starts with a statement of a command, and goes on with `rest`. A semicolon right after a
block belongs to the block. -/
inductive Starts (find? : List Char → Option κ) (form : κ → Form) :
    (text : List Char) → κ → Statement → (rest : List Char) → Prop
  | simple {keyword args rest : List Char} {command : κ} (hkeyword : '(' ∉ keyword)
      (hfind : find? keyword = some command) (hform : form command = .simple) (hargs : ')' ∉ args) :
      Starts find? form (head keyword args ++ ';' :: rest) command
        ⟨keyword, head keyword args ++ [';'], args, none⟩ rest
  | block {keyword args body rest : List Char} {command : κ} (hkeyword : '(' ∉ keyword)
      (hfind : find? keyword = some command) (hform : form command = .block) (hargs : ')' ∉ args)
      (hbody : Balanced body) (hrest : rest.head? ≠ some ';') :
      Starts find? form (head keyword args ++ '\x7b' :: (body ++ '\x7d' :: rest)) command
        ⟨keyword, head keyword args ++ ('\x7b' :: body ++ ['\x7d']), args, some body⟩ rest
  | blockSemicolon {keyword args body rest : List Char} {command : κ} (hkeyword : '(' ∉ keyword)
      (hfind : find? keyword = some command) (hform : form command = .block) (hargs : ')' ∉ args)
      (hbody : Balanced body) :
      Starts find? form (head keyword args ++ '\x7b' :: (body ++ '\x7d' :: ';' :: rest)) command
        ⟨keyword, head keyword args ++ ('\x7b' :: body ++ ['\x7d', ';']), args, some body⟩ rest

/-- The text before a statement's end, cut at its first parenthesis. -/
lemma splitAtFirst_head {keyword args tail : List Char} (hkeyword : '(' ∉ keyword) :
    splitAtFirst '(' (head keyword args ++ tail) = some (keyword, args ++ ')' :: tail) :=
  splitAtFirst_eq_some.2 ⟨by simp [head], hkeyword⟩

/-- Locating the end of a statement settles where it starts and stops. -/
lemma locateEnd_eq_ok {input keyword args tail : List Char} {command : κ}
    (hkeyword : '(' ∉ keyword) (hfind : find? keyword = some command) (hargs : ')' ∉ args)
    (hinput : head keyword args ++ tail = input) {l : Located κ input}
    (h : locateEnd command (form command) keyword args tail hinput = .ok l) :
    Starts find? form input l.command l.statement l.rest := by
  subst hinput
  unfold locateEnd at h
  split at h
  next rest hform _ _ =>
    cases h
    exact .simple hkeyword hfind hform hargs
  next => cases h
  next inner hform _ _ =>
    split at h
    next => cases h
    next body rest hclose =>
      obtain ⟨rfl, hbody⟩ := closeBlock_eq_some.1 hclose
      cases h
      exact .blockSemicolon hkeyword hfind hform hargs hbody
    next body rest hrest hclose =>
      obtain ⟨rfl, hbody⟩ := closeBlock_eq_some.1 hclose
      cases h
      refine .block hkeyword hfind hform hargs hbody fun hhead => ?_
      obtain ⟨r, rfl⟩ := List.head?_eq_some_iff.1 hhead
      exact hrest r rfl
  next => cases h

lemma Starts.of_locate {input : List Char} {l : Located κ input}
    (h : locate find? form input = .ok l) :
    Starts find? form input l.command l.statement l.rest := by
  rw [locate] at h
  split at h
  next => cases h
  next keyword afterKeyword hk =>
    split at h
    next => cases h
    next command hfind =>
      split at h
      next => cases h
      next args tail ha =>
        exact locateEnd_eq_ok (splitAtFirst_eq_some.1 hk).2 hfind (splitAtFirst_eq_some.1 ha).2 _ h

/-- Locating reaches the end of a statement once its head is there. -/
lemma locate_head {keyword args tail : List Char} {command : κ} (hkeyword : '(' ∉ keyword)
    (hfind : find? keyword = some command) (hargs : ')' ∉ args) :
    locate find? form (head keyword args ++ tail) =
      locateEnd command (form command) keyword args tail rfl := by
  have hk : splitAtFirst '(' (head keyword args ++ tail) = some (keyword, args ++ ')' :: tail) :=
    splitAtFirst_head hkeyword
  have ha : splitAtFirst ')' (args ++ ')' :: tail) = some (args, tail) :=
    splitAtFirst_eq_some.2 ⟨rfl, hargs⟩
  rw [locate]
  split
  next hnone => simp [hk] at hnone
  next keyword' afterKeyword hsome =>
    obtain ⟨rfl, rfl⟩ := Prod.mk.inj (Option.some.inj (hk.symm.trans hsome))
    split
    next hnone => simp [hfind] at hnone
    next command' hfind' =>
      obtain rfl := Option.some.inj (hfind.symm.trans hfind')
      split
      next hnone => simp [ha] at hnone
      next args' tail' hsome' =>
        obtain ⟨rfl, rfl⟩ := Prod.mk.inj (Option.some.inj (ha.symm.trans hsome'))
        rfl

lemma Starts.exists_locate {input rest : List Char} {command : κ} {s : Statement}
    (h : Starts find? form input command s rest) :
    ∃ l, locate find? form input = .ok l ∧ l.command = command ∧ l.statement = s ∧
      l.rest = rest := by
  cases h with
  | simple hkeyword hfind hform hargs =>
    rw [locate_head hkeyword hfind hargs, hform]
    exact ⟨_, rfl, rfl, rfl, rfl⟩
  | @block keyword args body rest command hkeyword hfind hform hargs hbody hrest =>
    have hclose : closeBlock 0 (body ++ '\x7d' :: rest) = some (body, rest) :=
      closeBlock_eq_some.2 ⟨rfl, hbody⟩
    rw [locate_head hkeyword hfind hargs, hform]
    simp only [locateEnd]
    split
    next hnone => simp [hclose] at hnone
    next body' rest' hsome =>
      obtain ⟨rfl, rfl⟩ := Prod.mk.inj (Option.some.inj (hclose.symm.trans hsome))
      simp at hrest
    next body' rest' _ hsome =>
      obtain ⟨rfl, rfl⟩ := Prod.mk.inj (Option.some.inj (hclose.symm.trans hsome))
      exact ⟨_, rfl, rfl, rfl, rfl⟩
  | @blockSemicolon keyword args body rest command hkeyword hfind hform hargs hbody =>
    have hclose : closeBlock 0 (body ++ '\x7d' :: ';' :: rest) = some (body, ';' :: rest) :=
      closeBlock_eq_some.2 ⟨rfl, hbody⟩
    rw [locate_head hkeyword hfind hargs, hform]
    simp only [locateEnd]
    split
    next hnone => simp [hclose] at hnone
    next body' rest' hsome =>
      obtain ⟨rfl, hrest⟩ := Prod.mk.inj (Option.some.inj (hclose.symm.trans hsome))
      obtain ⟨-, rfl⟩ := List.cons.inj hrest
      exact ⟨_, rfl, rfl, rfl, rfl⟩
    next body' rest' hrest hsome =>
      obtain ⟨rfl, rfl⟩ := Prod.mk.inj (Option.some.inj (hclose.symm.trans hsome))
      exact absurd rfl (hrest _)

/-- The first statement of a text is found exactly if there is one. -/
theorem exists_locate_iff_starts {input rest : List Char} {command : κ} {s : Statement} :
    (∃ l, locate find? form input = .ok l ∧ l.command = command ∧ l.statement = s ∧
      l.rest = rest) ↔ Starts find? form input command s rest := by
  constructor
  · rintro ⟨l, h, rfl, rfl, rfl⟩
    exact .of_locate h
  · exact Starts.exists_locate

end LoadTest
