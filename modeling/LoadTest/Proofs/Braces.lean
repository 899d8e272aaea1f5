import LoadTest.Scenario.Statement
import Mathlib.Tactic.Common

/-!
# Balanced braces

A block ends at the brace that matches its first one. Matching is stated by counting: no initial
part of a body closes more braces than are open, and in the end none is left open.
-/

namespace LoadTest

/-- Within `depth` open braces, `s` closes all of them and all of its own, and never one more than
are open. -/
def BalancedFrom (depth : Nat) (s : List Char) : Prop :=
  (∀ p, p <+: s → p.count '\x7d' ≤ depth + p.count '\x7b') ∧
    s.count '\x7d' = depth + s.count '\x7b'

/-- The braces of a text match each other. -/
def Balanced (s : List Char) : Prop := BalancedFrom 0 s

@[simp] lemma balancedFrom_nil {depth : Nat} : BalancedFrom depth [] ↔ depth = 0 := by
  simp [BalancedFrom]
  omega

/-- Initial parts of `c :: s`, one by one: the empty one, and those that begin with `c`. -/
private lemma forall_prefix_cons {P : List Char → Prop} {c : Char} {s : List Char} :
    (∀ p, p <+: c :: s → P p) ↔ P [] ∧ ∀ p, p <+: s → P (c :: p) := by
  constructor
  · intro h
    exact ⟨h [] List.nil_prefix, fun p hp => h _ (List.cons_prefix_cons.2 ⟨rfl, hp⟩)⟩
  · rintro ⟨hnil, hcons⟩ p hp
    cases p with
    | nil => exact hnil
    | cons x p =>
      obtain ⟨rfl, hp'⟩ := List.cons_prefix_cons.1 hp
      exact hcons p hp'

lemma balancedFrom_open {depth : Nat} {s : List Char} :
    BalancedFrom depth ('\x7b' :: s) ↔ BalancedFrom (depth + 1) s := by
  have hc : ∀ t : List Char, List.count '\x7d' ('\x7b' :: t) = t.count '\x7d' := fun t =>
    List.count_cons_of_ne (by decide)
  simp only [BalancedFrom, forall_prefix_cons, hc, List.count_cons_self, List.count_nil]
  constructor
  · rintro ⟨⟨-, h⟩, he⟩
    exact ⟨fun p hp => by have := h p hp; omega, by omega⟩
  · rintro ⟨h, he⟩
    exact ⟨⟨by omega, fun p hp => by have := h p hp; omega⟩, by omega⟩

lemma not_balancedFrom_zero_close {s : List Char} : ¬ BalancedFrom 0 ('\x7d' :: s) := by
  rintro ⟨h, -⟩
  have := h ['\x7d'] (List.cons_prefix_cons.2 ⟨rfl, List.nil_prefix⟩)
  simp at this

lemma balancedFrom_succ_close {depth : Nat} {s : List Char} :
    BalancedFrom (depth + 1) ('\x7d' :: s) ↔ BalancedFrom depth s := by
  have hc : ∀ t : List Char, List.count '\x7b' ('\x7d' :: t) = t.count '\x7b' := fun t =>
    List.count_cons_of_ne (by decide)
  simp only [BalancedFrom, forall_prefix_cons, hc, List.count_cons_self, List.count_nil]
  constructor
  · rintro ⟨⟨-, h⟩, he⟩
    exact ⟨fun p hp => by have := h p hp; omega, by omega⟩
  · rintro ⟨h, he⟩
    exact ⟨⟨by omega, fun p hp => by have := h p hp; omega⟩, by omega⟩

lemma balancedFrom_other {depth : Nat} {c : Char} {s : List Char} (ho : c ≠ '\x7b')
    (hc : c ≠ '\x7d') : BalancedFrom depth (c :: s) ↔ BalancedFrom depth s := by
  simp [BalancedFrom, forall_prefix_cons, List.count_cons_of_ne ho, List.count_cons_of_ne hc]

/-- Text without braces does not matter to whether braces match. -/
lemma balancedFrom_append {depth : Nat} {p : List Char} (hp : '\x7b' ∉ p ∧ '\x7d' ∉ p)
    (s : List Char) : BalancedFrom depth (p ++ s) ↔ BalancedFrom depth s := by
  induction p with
  | nil => rfl
  | cons c p ih =>
    simp only [List.mem_cons, not_or] at hp
    obtain ⟨⟨ho, hop⟩, hc, hcp⟩ := hp
    rw [List.cons_append, balancedFrom_other (Ne.symm ho) (Ne.symm hc), ih ⟨hop, hcp⟩]

/-- One more brace closes one more block. -/
lemma BalancedFrom.close {depth : Nat} {s : List Char} (h : BalancedFrom depth s) :
    BalancedFrom (depth + 1) (s ++ ['\x7d']) := by
  induction s generalizing depth with
  | nil =>
    obtain rfl := balancedFrom_nil.1 h
    exact balancedFrom_succ_close.2 (balancedFrom_nil.2 rfl)
  | cons c s ih =>
    rw [List.cons_append]
    by_cases ho : c = '\x7b'
    · subst ho
      exact balancedFrom_open.2 (ih (balancedFrom_open.1 h))
    by_cases hc : c = '\x7d'
    · subst hc
      cases depth with
      | zero => exact absurd h not_balancedFrom_zero_close
      | succ depth => exact balancedFrom_succ_close.2 (ih (balancedFrom_succ_close.1 h))
    · exact (balancedFrom_other ho hc).2 (ih ((balancedFrom_other ho hc).1 h))

/-- The end of a block is the first brace before which the braces match. -/
theorem closeBlock_eq_some {depth : Nat} {s body rest : List Char} :
    closeBlock depth s = some (body, rest) ↔
      s = body ++ '\x7d' :: rest ∧ BalancedFrom depth body := by
  induction s generalizing depth body with
  | nil => simp [closeBlock]
  | cons c s ih =>
    -- A character that does not end the block is the first one of its body.
    have hpass : ∀ d, (∀ b, BalancedFrom depth (c :: b) ↔ BalancedFrom d b) →
        (c = '\x7d' → depth ≠ 0) →
        ((closeBlock d s).map (fun p => (c :: p.1, p.2)) = some (body, rest) ↔
          c :: s = body ++ '\x7d' :: rest ∧ BalancedFrom depth body) := by
      intro d hstep hend
      cases body with
      | nil =>
        simp only [Option.map_eq_some_iff, Prod.mk.injEq, reduceCtorEq, false_and, and_false,
          exists_false, List.nil_append, List.cons.injEq, balancedFrom_nil, false_iff, not_and]
        rintro ⟨hc, -⟩
        exact hend hc
      | cons x b =>
        rw [Option.map_eq_some_iff]
        constructor
        · rintro ⟨⟨b', r⟩, hb, heq⟩
          simp only [Prod.mk.injEq, List.cons.injEq] at heq
          obtain ⟨⟨rfl, rfl⟩, rfl⟩ := heq
          obtain ⟨rfl, hbal⟩ := ih.1 hb
          exact ⟨rfl, (hstep _).2 hbal⟩
        · rintro ⟨heq, hbal⟩
          simp only [List.cons_append, List.cons.injEq] at heq
          obtain ⟨rfl, hs⟩ := heq
          exact ⟨(b, rest), ih.2 ⟨hs, (hstep b).1 hbal⟩, rfl⟩
    simp only [closeBlock]
    split_ifs with ho hc
    · subst ho
      exact hpass _ (fun _ => balancedFrom_open) (fun h => absurd h (by decide))
    · subst hc
      cases depth with
      | zero =>
        cases body with
        | nil => simp [eq_comm]
        | cons x b =>
          simp only [Option.some.injEq, Prod.mk.injEq, List.cons_append, List.cons.injEq,
            List.nil_eq, reduceCtorEq, false_and, false_iff, not_and]
          rintro ⟨rfl, -⟩
          exact not_balancedFrom_zero_close
      | succ depth => exact hpass _ (fun _ => balancedFrom_succ_close) (fun _ => by omega)
    · exact hpass _ (fun _ => balancedFrom_other ho hc) (fun h => absurd h hc)

end LoadTest
