import LoadTest.Proofs.NormalForm
import LoadTest.Scenario.Builtin
import Mathlib.Algebra.Ring.Parity
import Mathlib.Data.List.Infix
import Mathlib.Logic.Relation

/-!
# The layout of scenario texts

Blanks may stand anywhere, even within a marker, the letters of ASCII may be small or capital, and
comments may stand wherever no comment is open. All of this is gone from the normal form, so it
changes neither the work units of a text nor the fault in it.

A comment that is put into a text shifts no marker behind it: where it stands all comments are
closed, its own markers are found as such, and they close it again.
-/

namespace LoadTest

open Text

/-- What is left of a text without its blanks. -/
def visible (s : List Char) : List Char := s.filter fun c => !isBlank c

/-- The stretches between the markers of a text, which are found from left to right. The first
stretch is outside of comments, the second one is a comment, and so on. -/
def stretches : List Char → List (List Char)
  | '#' :: '#' :: s => [] :: stretches s
  | c :: s => (stretches s).modifyHead (c :: ·)
  | [] => [[]]

/-- A place outside of comments where a marker may stand: there is no `#` right in front of it that
does not belong to a comment. `before` is all the text in front of it. -/
structure IsClear (before : List Char) : Prop where
  closed : Odd (stretches (visible before)).length
  ends : ∀ p ∈ (stretches (visible before)).getLast?, p.getLast? ≠ some '#'

/-- What may stand between two markers: no marker, nor anything that makes one together with the
second of them. -/
structure IsRemark (c : List Char) : Prop where
  noMarker : ¬ ['#', '#'] <:+: visible c
  ends : (visible c).getLast? ≠ some '#'

/-- One change of the layout, by which the second text has a blank or a comment more, or a letter of
ASCII in another case. -/
inductive Relaid : List Char → List Char → Prop
  | blank (s t : List Char) {c : Char} (hc : isBlank c = true) : Relaid (s ++ t) (s ++ c :: t)
  | letter (s t : List Char) {c d : Char} (h : c.toLower = d.toLower) :
      Relaid (s ++ c :: t) (s ++ d :: t)
  | comment {s c : List Char} (hs : IsClear s) (hc : IsRemark c) (t : List Char) :
      Relaid (s ++ t) (s ++ "##".toList ++ c ++ "##".toList ++ t)

lemma visible_append (s t : List Char) : visible (s ++ t) = visible s ++ visible t :=
  List.filter_append s t

/-! ### Comments -/

/-- The text outside of comments is there if every comment is closed. -/
lemma exists_dropComments {inside : Bool} {s : List Char}
    (h : Odd ((stretches s).length + inside.toNat)) : ∃ t, dropComments inside s = some t := by
  fun_induction dropComments inside s with
  | case1 inside s ih =>
    refine ih ?_
    rw [stretches, List.length_cons] at h
    cases inside with
    | false => exact h
    | true =>
      simp only [Bool.toNat_true, Nat.odd_iff] at h
      simp only [Bool.not_true, Bool.toNat_false, Nat.odd_iff]
      omega
  | case2 c s hs ih =>
    rw [stretches, List.length_modifyHead] at h
    · obtain ⟨t, ht⟩ := ih h
      exact ⟨c :: t, by rw [ht, Option.map_some]⟩
    · exact hs
  | case3 c s hs ih =>
    rw [stretches, List.length_modifyHead] at h
    · exact ih h
    · exact hs
  | case4 => exact ⟨[], rfl⟩
  | case5 => exact absurd h (by decide)

/-- A `#` at the end of the text outside of comments is at the end of the whole text. -/
lemma exists_getLast?_stretches {inside : Bool} {s t : List Char}
    (h : dropComments inside s = some t) (ht : t.getLast? = some '#') :
    ∃ p ∈ (stretches s).getLast?, p.getLast? = some '#' := by
  have hmodify : ∀ {c : Char} {ps : List (List Char)},
      (∃ p ∈ ps.getLast?, p.getLast? = some '#') →
      ∃ p ∈ (ps.modifyHead (c :: ·)).getLast?, p.getLast? = some '#' := by
    rintro c (_ | ⟨p, _ | ⟨q, ps⟩⟩) ⟨p', hp', hlast⟩
    · cases hp'
    · obtain rfl : p = p' := Option.some.inj hp'
      exact ⟨c :: p, rfl, by simp [List.getLast?_cons, hlast]⟩
    · exact ⟨p', hp', hlast⟩
  fun_induction dropComments inside s generalizing t with
  | case1 inside s ih =>
    obtain ⟨p, hp, hlast⟩ := ih h ht
    refine ⟨p, ?_, hlast⟩
    rw [stretches, List.getLast?_cons, Option.mem_def.1 hp]
    rfl
  | case2 c s hs ih =>
    obtain ⟨t, hdrop, rfl⟩ := Option.map_eq_some_iff.1 h
    rw [stretches]
    · by_cases hnil : t = []
      · subst hnil
        obtain rfl : c = '#' := by simpa using ht
        cases s with
        | nil => exact ⟨['#'], rfl, rfl⟩
        | cons x s =>
          rw [dropComments_cons fun hx => absurd (congrArg (· :: s) hx) (hs s rfl)] at hdrop
          obtain ⟨_, -, hcons⟩ := Option.map_eq_some_iff.1 hdrop
          cases hcons
      · exact hmodify (ih hdrop (by rwa [List.getLast?_cons_of_ne_nil hnil] at ht))
    · exact hs
  | case3 c s hs ih =>
    rw [stretches]
    · exact hmodify (ih h ht)
    · exact hs
  | case4 =>
    cases h
    cases ht
  | case5 => cases h

/-- Within a comment everything is passed over up to the next marker. -/
lemma dropComments_true_append {c : List Char} (hmarker : ¬ ['#', '#'] <:+: c)
    (hends : c.getLast? ≠ some '#') (s : List Char) :
    dropComments true (c ++ '#' :: '#' :: s) = dropComments false s := by
  induction c with
  | nil => rw [List.nil_append, dropComments, Bool.not_true]
  | cons x c ih =>
    have hx : x = '#' → (c ++ '#' :: '#' :: s).head? ≠ some '#' := by
      rintro rfl
      cases c with
      | nil => exact absurd rfl hends
      | cons y c =>
        rintro ⟨⟩
        exact hmarker ⟨[], c, rfl⟩
    have hends' : c.getLast? ≠ some '#' := fun h => hends (by simp [List.getLast?_cons, h])
    rw [List.cons_append, dropComments_true_cons hx,
      ih (fun h => hmarker (List.infix_cons h)) hends']

/-- A comment where no comment is open leaves nothing. -/
lemma dropComments_comment {s c : List Char} (hs : IsClear s) (hc : IsRemark c) (t : List Char) :
    dropComments false (visible s ++ '#' :: '#' :: (visible c ++ '#' :: '#' :: t)) =
      dropComments false (visible s ++ t) := by
  obtain ⟨kept, hkept⟩ := @exists_dropComments false _ hs.closed
  have hlast : kept.getLast? ≠ some '#' := by
    intro h
    obtain ⟨p, hp, hmarker⟩ := exists_getLast?_stretches hkept h
    exact hs.ends p hp hmarker
  rw [dropComments_append hkept fun h => absurd h hlast,
    dropComments_append hkept fun h => absurd h hlast, dropComments, Bool.not_false,
    dropComments_true_append hc.noMarker hc.ends]

/-! ### Letters -/

/-- What holds of the capital letters of ASCII and their small ones holds of every character and
what `Char.toLower` makes of it. -/
lemma forall_toLower {P : Char → Char → Prop} (hrefl : ∀ c, P c c)
    (hcapital : ∀ n < 26, P (Char.ofNat (0x41 + n)) (Char.ofNat (0x41 + n)).toLower) (c : Char) :
    P c c.toLower := by
  by_cases h : c.val ≥ 'A'.val ∧ c.val ≤ 'Z'.val
  · have hlow : 0x41 ≤ c.toNat := UInt32.le_iff_toNat_le.1 h.1
    have hhigh : c.toNat ≤ 0x5A := UInt32.le_iff_toNat_le.1 h.2
    have hc := hcapital (c.toNat - 0x41) (by omega)
    rwa [Nat.add_sub_cancel' hlow, Char.ofNat_toNat] at hc
  · have hsame : c.toLower = c := dif_neg h
    rw [hsame]
    exact hrefl c

lemma visible_map_toLower (s : List Char) :
    visible (s.map Char.toLower) = (visible s).map Char.toLower := by
  have hblank : ∀ c : Char, isBlank c.toLower = isBlank c :=
    forall_toLower (P := fun c c' => isBlank c' = isBlank c) (fun _ => rfl) (by decide)
  simp only [visible, List.filter_map, Function.comp_def, hblank]

lemma dropComments_map_toLower (inside : Bool) (s : List Char) :
    dropComments inside (s.map Char.toLower) =
      (dropComments inside s).map (List.map Char.toLower) := by
  have hmarker : ∀ c : Char, c.toLower = '#' → c = '#' :=
    forall_toLower (P := fun c c' => c' = '#' → c = '#') (fun _ => id) (by decide)
  have hhead : ∀ {c : Char} {s : List Char}, (∀ s', c = '#' → s = '#' :: s' → False) →
      c.toLower = '#' → (s.map Char.toLower).head? ≠ some '#' := by
    intro c s hs hc
    cases s with
    | nil => simp
    | cons x s =>
      intro hx
      obtain rfl := hmarker x (Option.some.inj hx)
      exact hs s (hmarker c hc) rfl
  fun_induction dropComments inside s with
  | case1 inside s ih =>
    rw [List.map_cons, List.map_cons, show Char.toLower '#' = '#' by decide, dropComments, ih]
  | case2 c s hs ih =>
    rw [List.map_cons, dropComments_cons (hhead hs), ih, Option.map_map, Option.map_map]
    rfl
  | case3 c s hs ih => rw [List.map_cons, dropComments_true_cons (hhead hs), ih]
  | case4 => rfl
  | case5 => rfl

lemma meetsCased_map_toLower (s : List Char) : meetsCased (s.map Char.toLower) = meetsCased s := by
  have hcased : ∀ c : Char, isCased c.toLower = isCased c :=
    forall_toLower (P := fun c c' => isCased c' = isCased c) (fun _ => rfl) (by decide +kernel)
  have hignorable : ∀ c : Char, isCaseIgnorable c.toLower = isCaseIgnorable c :=
    forall_toLower (P := fun c c' => isCaseIgnorable c' = isCaseIgnorable c) (fun _ => rfl)
      (by decide +kernel)
  induction s with
  | nil => rfl
  | cons c s ih =>
    cases hc : isCaseIgnorable c with
    | true => simpa [meetsCased, hignorable, hc] using ih
    | false => simp [meetsCased, hignorable, hc, hcased]

/-- Letters of ASCII are mapped alike in either case, and so is any sigma beside them. -/
lemma lowerAfter_map_toLower (before s : List Char) :
    lowerAfter (before.map Char.toLower) (s.map Char.toLower) = lowerAfter before s := by
  have hsigma : ∀ c : Char, c.toLower = 'Σ' ↔ c = 'Σ' :=
    forall_toLower (P := fun c c' => c' = 'Σ' ↔ c = 'Σ') (fun _ => Iff.rfl) (by decide)
  have hlower : ∀ c : Char, lowerChar c.toLower = lowerChar c :=
    forall_toLower (P := fun c c' => lowerChar c' = lowerChar c) (fun _ => rfl) (by decide)
  induction s generalizing before with
  | nil => rfl
  | cons c s ih =>
    have hrest := ih (c :: before)
    rw [List.map_cons] at hrest
    rw [List.map_cons, lowerAfter, lowerAfter, hrest, sigmaAt, sigmaAt, meetsCased_map_toLower,
      meetsCased_map_toLower]
    simp only [hsigma, hlower]

/-! ### The normal form -/

/-- The characters of the normal form, if there is one. -/
def normalForm (s : List Char) : Option (List Char) := (dropComments false (visible s)).map lower

lemma normalForm_map_toLower (s : List Char) : normalForm (s.map Char.toLower) = normalForm s := by
  rw [normalForm, visible_map_toLower, dropComments_map_toLower, Option.map_map, normalForm]
  congr 1
  funext t
  exact lowerAfter_map_toLower [] t

/-- A change of the layout keeps the normal form. -/
lemma Relaid.normalForm_eq {s t : List Char} (h : Relaid s t) : normalForm t = normalForm s := by
  cases h with
  | blank s t hc => simp [normalForm, visible, hc]
  | letter s t h =>
    rw [← normalForm_map_toLower, List.map_append, List.map_cons, ← h, ← List.map_cons,
      ← List.map_append, normalForm_map_toLower]
  | @comment s c hs hc t =>
    have hvisible : visible (s ++ "##".toList ++ c ++ "##".toList ++ t) =
        visible s ++ '#' :: '#' :: (visible c ++ '#' :: '#' :: visible t) := by
      have hmarker : visible "##".toList = ['#', '#'] := by decide
      rw [visible_append, visible_append, visible_append, visible_append, hmarker]
      simp
    rw [normalForm, hvisible, dropComments_comment hs hc, normalForm, visible_append]

lemma normalize_eq_elim (text : String) :
    normalize text = (normalForm text.toList).elim (.error .unterminatedComment) .ok := by
  rw [normalForm, normalize, visible]
  cases dropComments false (text.toList.filter fun c => !isBlank c) <;> rfl

lemma normalize_eq_of_normalForm {text text' : String}
    (h : normalForm text.toList = normalForm text'.toList) : normalize text = normalize text' := by
  rw [normalize_eq_elim, h, ← normalize_eq_elim]

/-- Layout does not matter: however often it is changed, and changed back, a text compiles to the
same work units, or to the same fault with the same statement in it. -/
theorem Registry.compile_of_relaid {ν : Type} (r : Registry ν) {text text' : String}
    (h : Relation.EqvGen Relaid text.toList text'.toList) : r.compile text' = r.compile text := by
  have hnormal : ∀ {s t : List Char}, Relation.EqvGen Relaid s t → normalForm s = normalForm t := by
    intro s t h
    induction h with
    | rel _ _ h => exact h.normalForm_eq.symm
    | refl _ => rfl
    | symm _ _ _ ih => exact ih.symm
    | trans _ _ _ _ _ ih ih' => exact ih.trans ih'
  rw [compile, compile, draft, draft, normalize_eq_of_normalForm (hnormal h)]

/-- A delay with a blank in front of its number. -/
def plainText : String := "Delay(seconds: 1);"

/-- The same delay without the blank, with a small letter, and with a comment in its keyword whose
first marker is in two. -/
def laidOutText : String := "de# # b # \x7d; ##lay(seconds:1);"

theorem Registry.compile_laidOutText :
    (builtin : Registry Empty).compile laidOutText = .ok #[.delay 1000] := by
  have hblank : Relaid "Delay(seconds:1);".toList plainText.toList :=
    .blank "Delay(seconds:".toList "1);".toList (c := ' ') (by decide)
  have hletter : Relaid "Delay(seconds:1);".toList "delay(seconds:1);".toList :=
    .letter [] "elay(seconds:1);".toList (c := 'D') (d := 'd') (by decide)
  have hclear : IsClear "de".toList := ⟨by decide, by decide⟩
  have hremark : IsRemark " b # \x7d; ".toList := ⟨by decide, by decide⟩
  have hcomment : Relaid "delay(seconds:1);".toList "de## b # \x7d; ##lay(seconds:1);".toList :=
    .comment hclear hremark "lay(seconds:1);".toList
  have hmarker : Relaid "de## b # \x7d; ##lay(seconds:1);".toList laidOutText.toList :=
    .blank "de#".toList "# b # \x7d; ##lay(seconds:1);".toList (c := ' ') (by decide)
  have hlayout : Relation.EqvGen Relaid plainText.toList laidOutText.toList :=
    (((Relation.EqvGen.rel _ _ hblank).symm.trans _ _ _ (.rel _ _ hletter)).trans _ _ _
      (.rel _ _ hcomment)).trans _ _ _ (.rel _ _ hmarker)
  rw [compile_of_relaid builtin hlayout]
  decide +kernel

end LoadTest
