import LoadTest.Proofs.Pacing

/-!
# Worlds that come to rest

Up to any instant a world comes to rest if all its templates sleep in their cycles: at each instant
everyone calms down, and then time passes. What has happened by then is known: which work units
were started when, and what happened to the sessions.
-/

namespace LoadTest

variable {σ : Type}

/-- Something that happens to the session of an instance. -/
structure Moment (σ : Type) where
  time : Millis
  instanceNumber : Nat
  event : LifeEvent σ

namespace World

variable {w v x : World σ} {i : Nat} {limit : Millis}

/-! ### What happens to sessions -/

/-- What happens to sessions by the next step of a world. -/
def lives (w : World σ) : List (Moment σ) :=
  match w.firstReady? w.actors with
  | some (.user i u, _) =>
    match w.run? i with
    | some r =>
      (u.events (w.viewOf r u)).map fun e => ⟨w.now, (w.stepUser r u).instanceNumber, e⟩
    | none => []
  | _ => []

/-- What happens to sessions while a world steps on. -/
def lived (stop : World σ → Bool) (limit : Millis) : (fuel : Nat) → World σ → List (Moment σ)
  | 0, _ => []
  | fuel + 1, w =>
    if stop w then []
    else
      match w.next? limit with
      | some v => w.lives ++ lived stop limit fuel v
      | none => []

lemma lives_of_settled (h : w.firstReady? w.actors = none) : w.lives = [] := by
  rw [lives, h]

/-- By the next step of a world the actors of an instant calm down, or time passes, if none of them
stirs forever and whoever is launched stirs. -/
lemma Staffed.calms_or_passes (hw : w.Staffed) (hacc : ∀ a ∈ w.actors, Acc (Actor.Stirs w.now) a)
    (hlaunches : ∀ a b, w.Launches a b → b ∈ v.actors → b.Stirs w.now a)
    (h : w.next? limit = some v) :
    v.now = w.now ∧ Calms w.now v.actors w.actors ∨ w.now < v.now ∧ v.now ≤ limit := by
  rw [next?] at h
  split at h
  next a others hfirst =>
    cases h
    obtain ⟨-, -, -, -, hready⟩ := firstReady?_eq_some hfirst
    have ha := mem_of_firstReady? hfirst
    obtain ⟨new, hafter, hnew⟩ := (hw.lineup ha others).perm
    refine .inl ⟨now_of_turn, calms_of_stirs (hacc a ha) (perm_of_firstReady? hfirst) hafter ?_⟩
    intro b hb
    have hmem := hafter.mem_iff.2 (List.mem_append_left _ hb)
    exact (hnew b hb).elim (·.stirs hready) (hlaunches a b · hmem)
  next hsettled =>
    split at h
    next t ht =>
      split_ifs at h with hle
      cases h
      obtain ⟨a, ha, hdeadline⟩ := List.mem_filterMap.1 (List.min?_mem ht)
      have hlt := hw.lt_deadline ha (not_isReady_of_settled hsettled a ha) hdeadline
      rw [Nat.max_eq_right (Nat.le_of_lt hlt)]
      exact .inr ⟨hlt, hle⟩
    next => cases h

lemma Reachable.calms_or_passes (hw : w.Reachable)
    (hsleeps : ∀ k t, w.template? k = some t → t.SleepsInCycles) (h : w.next? limit = some v) :
    v.now = w.now ∧ Calms w.now v.actors w.actors ∨ w.now < v.now ∧ v.now ≤ limit :=
  hw.staffed.calms_or_passes (fun _ ha => hw.acc_stirs hsleeps ha w.now)
    (fun _ _ hlaunches _ => hlaunches.stirs hsleeps w.now) h

/-- If at each step of a world its actors calm down or time passes, it comes to rest up to an
instant. So what holds of worlds at rest, and passes from a world to the one before it, holds of
it. -/
theorem rest_induction (limit : Millis) {P Q : World σ → Prop}
    (hacc : ∀ w, P w → ∀ a ∈ w.actors, Acc (Actor.Stirs w.now) a)
    (hnext : ∀ w v, P w → w.next? limit = some v → P v ∧
      (v.now = w.now ∧ Calms w.now v.actors w.actors ∨ w.now < v.now ∧ v.now ≤ limit))
    (hrests : ∀ w, P w → w.next? limit = none → Q w)
    (hgoes : ∀ w v, P w → w.next? limit = some v → Q v → Q w) (hw : P w) : Q w := by
  -- Time comes closer to the limit, and in between everyone calms down.
  induction hleft : limit - w.now using Nat.strongRecOn generalizing w with
  | ind left ihleft =>
    have hcalm : Acc (Calms w.now) w.actors := acc_calms (hacc w hw)
    generalize hnow : w.now = now at hcalm
    generalize hactors : w.actors = actors at hcalm
    induction hcalm generalizing w with
    | intro actors _ ihcalms =>
      cases hstep : w.next? limit with
      | none => exact hrests w hw hstep
      | some v =>
        refine hgoes w v hw hstep ?_
        obtain ⟨hv, ⟨hsame, hcalms⟩ | ⟨hlt, hle⟩⟩ := hnext w v hw hstep
        · rw [hactors, hnow] at hcalms
          exact ihcalms v.actors hcalms hv (by rw [hsame, hleft]) (hsame.trans hnow) rfl
        · refine ihleft _ ?_ hv rfl
          rw [← hleft]
          exact Nat.sub_lt_sub_left (Nat.lt_of_lt_of_le hlt hle) hlt

lemma Reachable.template_steps (hw : w.Reachable) (h : Steps w v) (k : Nat) :
    v.template? k = w.template? k := by
  induction h using Relation.ReflTransGen.head_induction_on with
  | refl => rfl
  | head hstep _ ih =>
    refine (ih (.step hw hstep)).trans ?_
    cases hstep with
    | turn hactors hready => exact hw.staffed.template_turn (hactors ▸ List.perm_middle) k
    | wait hnow => rfl

/-! ### Whole plays -/

/-- A world steps on until nothing more happens up to an instant. On the way work units are started
on a run, and something happens to sessions. -/
inductive Plays (i : Nat) (limit : Millis) :
    World σ → List (Millis × WorkUnit) → List (Moment σ) → World σ → Prop
  | rests {w : World σ} (hnext : w.next? limit = none) : Plays i limit w [] [] w
  | goes {w v x : World σ} {starts : List (Millis × WorkUnit)} {moments : List (Moment σ)}
      (hnext : w.next? limit = some v) (hv : Plays i limit v starts moments x) :
      Plays i limit w (w.begins i ++ starts) (w.lives ++ moments) x

lemma Plays.next?_eq {starts : List (Millis × WorkUnit)} {moments : List (Moment σ)}
    (h : Plays i limit w starts moments x) : x.next? limit = none := by
  induction h with
  | rests hnext => exact hnext
  | goes _ _ ih => exact ih

lemma Plays.exists_fuel {starts : List (Millis × WorkUnit)} {moments : List (Moment σ)}
    (h : Plays i limit w starts moments x) :
    ∃ n, ∀ fuel, n ≤ fuel → stepUntil (fun _ => false) limit fuel w = x ∧
      begun i (fun _ => false) limit fuel w = starts ∧
      lived (fun _ => false) limit fuel w = moments := by
  induction h with
  | rests hnext =>
    refine ⟨0, fun fuel _ => ?_⟩
    cases fuel with
    | zero => exact ⟨rfl, rfl, rfl⟩
    | succ fuel => simp [stepUntil, begun, lived, hnext]
  | goes hnext _ ih =>
    obtain ⟨n, hn⟩ := ih
    refine ⟨n + 1, fun fuel hfuel => ?_⟩
    obtain ⟨fuel, rfl⟩ := Nat.exists_eq_add_of_le' (Nat.le_trans (Nat.le_add_left 1 n) hfuel)
    obtain ⟨hsteps, hbegun, hlived⟩ := hn fuel (Nat.le_of_succ_le_succ hfuel)
    simp [stepUntil, begun, lived, hnext, hsteps, hbegun, hlived]

/-- A world whose templates sleep in their cycles comes to rest. -/
theorem Reachable.exists_plays (hw : w.Reachable)
    (hsleeps : ∀ k t, w.template? k = some t → t.SleepsInCycles) (i : Nat) (limit : Millis) :
    ∃ starts moments x, Plays i limit w starts moments x := by
  let P : World σ → Prop := fun w =>
    w.Reachable ∧ ∀ k t, w.template? k = some t → t.SleepsInCycles
  let Q : World σ → Prop := fun w => ∃ starts moments x, Plays i limit w starts moments x
  refine rest_induction limit (P := P) (Q := Q) ?_ ?_ ?_ ?_ ⟨hw, hsleeps⟩
  · rintro w ⟨hw, hsleeps⟩ a ha
    exact hw.acc_stirs hsleeps ha w.now
  · rintro w v ⟨hw, hsleeps⟩ hnext
    have hstep := step_of_next? hnext
    refine ⟨⟨.step hw hstep, fun k t ht => ?_⟩, hw.calms_or_passes hsleeps hnext⟩
    exact hsleeps k t (hw.template_steps (.single hstep) k ▸ ht)
  · intro w _ hnext
    exact ⟨[], [], w, .rests hnext⟩
  · rintro w v - hnext ⟨starts, moments, x, hx⟩
    exact ⟨_, _, x, .goes hnext hx⟩

end World

end LoadTest
