import LoadTest.Proofs.Resemblance
import LoadTest.Proofs.Resting

/-!
# Isolation of instances

Two worlds whose templates differ in one instance need not keep step: the user with that instance
may have turns in one of them that it does not have in the other, and time may stop there for it
alone. As none of that shows, the two worlds can be let go on one at a time until what comes next
shows in both. Then it is the same in both, at the same instant. So the other instances, and the
work units, never notice.
-/

namespace LoadTest

variable {σ : Type} {S : Others σ} {j : Nat}

/-- The same happens to the same instance at the same time. -/
structure Moment.Alike (S : Others σ) (m m' : Moment σ) : Prop where
  time : m'.time = m.time
  instanceNumber : m'.instanceNumber = m.instanceNumber
  event : m.event.Alike S m'.event

/-! ### Readiness -/

lemma lt_of_lt_min? {instants : List Millis} {t : Millis}
    (h : ∀ m, instants.min? = some m → t < m) {s : Millis} (hs : s ∈ instants) : t < s := by
  cases hmin : instants.min? with
  | none =>
    rw [List.min?_eq_none_iff.1 hmin] at hs
    cases hs
  | some m => exact Nat.lt_of_lt_of_le (h m hmin) ((List.min?_eq_some_iff.1 hmin).2 s hs)

lemma Hold.not_isOver_of_lt {hold : Hold} {r : Run} {now t : Millis}
    (h : hold.isOver now r = false) (ht : ∀ s, hold.deadline? = some s → t < s) :
    hold.isOver t r = false := by
  cases hold with
  | pause s =>
    rw [isOver, Bool.or_eq_false_iff] at h ⊢
    have hlt := ht s rfl
    exact ⟨by simp [hlt], h.2⟩
  | clock s =>
    have hlt := ht s rfl
    simp [isOver, hlt]
  | _ => exact h

lemma Operation.not_isReady_of_lt {p : Operation} {r : Run} {now t : Millis}
    (h : p.isReady now r = false)
    (ht : ∀ s, World.deadline? (.operation p : Actor σ) = some s → t < s) :
    p.isReady t r = false := by
  have hdue : ∀ s, some s ∈ [p.hold.deadline?, p.limit] → t < s := fun s hs =>
    lt_of_lt_min? ht (List.reduceOption_mem_iff.2 hs)
  rw [isReady, Bool.or_eq_false_iff] at h ⊢
  refine ⟨Hold.not_isOver_of_lt h.1 fun s hs => hdue s (by simp [hs]), ?_⟩
  rw [isLate]
  cases hlimit : p.limit with
  | none => rfl
  | some s =>
    have hlt := hdue s (by simp [hlimit])
    simp [hlt]

namespace Actor

variable {a a' : Actor σ} {now : Millis} {o : Outline}

/-- Is an actor ready at an instant, as far as an outline tells? -/
def isDue (now : Millis) (o : Outline) : Actor σ → Bool
  | .user i u =>
    match u.wakeAt? with
    | none => true
    | some wakeAt => wakeAt ≤ now || (o.runs[i]?).any (·.pool.aborted)
  | .operation p => (o.runs[p.run]?).any (p.isReady now)
  | .watch i tick => tick ≤ now || (o.runs[i]?).all Run.dropped
  | .alarm _ due => due ≤ now

lemma Alike.isDue (h : a.Alike j S a') : a'.isDue now o = a.isDue now o := by
  cases h with
  | user i hu => rw [Actor.isDue, Actor.isDue, hu.wakeAt?]
  | _ => rfl

lemma Alike.deadline? (h : a.Alike j S a') : World.deadline? a' = World.deadline? a := by
  cases h with
  | user i hu => exact hu.wakeAt?
  | _ => rfl

/-- Nobody becomes ready before the instant at which they do by themselves. -/
lemma not_isDue_of_lt (h : a.isDue now o = false) {t : Millis}
    (ht : ∀ s, World.deadline? a = some s → t < s) : a.isDue t o = false := by
  cases a with
  | user i u =>
    rw [isDue] at h ⊢
    cases hwake : u.wakeAt? with
    | none => simp [hwake] at h
    | some s =>
      rw [hwake, Bool.or_eq_false_iff] at h
      have hlt := ht s hwake
      simp [h.2, hlt]
  | operation p =>
    rw [isDue] at h ⊢
    cases hr : o.runs[p.run]? with
    | none => rfl
    | some r =>
      rw [hr] at h
      exact Operation.not_isReady_of_lt h ht
  | watch i tick =>
    rw [isDue, Bool.or_eq_false_iff] at h ⊢
    have hlt := ht tick rfl
    exact ⟨by simp [hlt], h.2⟩
  | alarm i due =>
    have hlt := ht due rfl
    simp [isDue, hlt]

end Actor

namespace World

variable {w w' v v' x x' : World σ} {i : Nat} {limit : Millis}

/-- Whoever is ready shows in the outline. -/
lemma Confines.isReady_eq (h : w.Confines S j) {a : Actor σ} (ha : a ∈ w.actors) :
    w.isReady a = a.isDue w.now (w.outline S.heedful j) := by
  obtain ⟨r, hr⟩ := h.reachable.staffed.exists_run ha
  cases a with
  | user i u =>
    have hplace : w.run? i = some r := hr
    rw [isReady, Actor.isDue]
    cases hwake : u.wakeAt? with
    | none => rfl
    | some s =>
      have hsuspended : u.isSuspended = true := by
        by_contra hnot
        rw [User.wakeAt?_of_isSuspended (by simpa using hnot)] at hwake
        cases hwake
      have haborted :=
        h.reachable.staffed.isAborted_eq hplace ha (isEnrolled_of_isSuspended hsuspended)
      simp only [getElem?_outline, hplace, Option.map_some, Option.any_some, haborted]
      rfl
  | operation p =>
    have hplace : w.run? p.run = some r := hr
    have houtline : (r.outline S.heedful).outline S.heedful = r.outline S.heedful :=
      r.outline_outline
    have hready := Operation.isReady_of_outline houtline (h.blind p ha) w.now
    simp only [isReady, Actor.isDue, getElem?_outline, hplace, Option.map_some, Option.any_some,
      hready]
  | watch i tick =>
    have hplace : w.run? i = some r := hr
    simp only [isReady, Actor.isDue, getElem?_outline, hplace, Option.map_some, Option.all_some]
    rfl
  | alarm i due => rfl

/-- None of the others is ready. -/
def Idle (S : Others σ) (j : Nat) (w : World σ) : Prop :=
  ∀ a ∈ strangers j w.actors, a.isDue w.now (w.outline S.heedful j) = false

lemma mem_of_mem_strangers {as : List (Actor σ)} {a : Actor σ} (h : a ∈ strangers j as) : a ∈ as :=
  List.mem_of_mem_filter h

lemma Confines.idle_of_settled (h : w.Confines S j) (hsettled : w.firstReady? w.actors = none) :
    w.Idle S j := by
  intro a ha
  have ha' := mem_of_mem_strangers ha
  rw [← h.isReady_eq ha']
  exact not_isReady_of_settled hsettled a ha'

/-! ### Steps that do not show -/

/-- A world has come to another by steps that do not show. -/
structure Unseen (S : Others σ) (j : Nat) (w v : World σ) : Prop where
  steps : Steps w v
  outline : v.outline S.heedful j = w.outline S.heedful j
  strangers : strangers j v.actors = strangers j w.actors
  clocks : v.now = w.now ∨ w.Idle S j ∧ v.Idle S j

lemma Unseen.refl (w : World σ) : Unseen S j w w := ⟨.refl, rfl, rfl, .inl rfl⟩

lemma Unseen.idle (h : Unseen S j w v) (hidle : w.Idle S j) : v.Idle S j := by
  rcases h.clocks with hnow | ⟨-, hidle'⟩
  · intro a ha
    rw [hnow, h.outline]
    exact hidle a (h.strangers ▸ ha)
  · exact hidle'

/-- What comes next in a world, not past an instant, and does not show: the turn of the user with
the instance of a number, or time that passes for it alone. -/
inductive StepsAside (j : Nat) (w : World σ) : World σ → Prop
  | turn {u : User σ} {i : Nat} {others : List (Actor σ)}
      (hfirst : w.firstReady? w.actors = some (.user i u, others))
      (howns : Actor.owns j (.user i u) = true) :
      StepsAside j w (w.turn (.user i u) others)
  | wait {t : Millis} (hsettled : w.firstReady? w.actors = none) (hnow : w.now ≤ t)
      (hbefore : ∀ s, earliest (strangers j w.actors) = some s → t < s) :
      StepsAside j w { w with now := t }

/-- What happens to the other instances. -/
def ofOthers (j : Nat) (moments : List (Moment σ)) : List (Moment σ) :=
  moments.filter fun m => m.instanceNumber != j

lemma ofOthers_append (ms ns : List (Moment σ)) :
    ofOthers j (ms ++ ns) = ofOthers j ms ++ ofOthers j ns :=
  List.filter_append ..

lemma ofOthers_eq_nil {ms : List (Moment σ)} (h : ∀ m ∈ ms, m.instanceNumber = j) :
    ofOthers j ms = [] := List.filter_eq_nil_iff.2 fun m hm => by simp [h m hm]

/-- The others wait for no earlier instant than everyone does. -/
lemma exists_earliest_le {as : List (Actor σ)} {s : Millis}
    (hs : earliest (strangers j as) = some s) : ∃ t, earliest as = some t ∧ t ≤ s := by
  obtain ⟨a, ha, hdeadline⟩ := List.mem_filterMap.1 (List.min?_mem hs)
  have hmem : s ∈ as.filterMap deadline? :=
    List.mem_filterMap.2 ⟨a, mem_of_mem_strangers ha, hdeadline⟩
  cases hall : earliest as with
  | none =>
    rw [List.min?_eq_none_iff.1 hall] at hmem
    cases hmem
  | some t => exact ⟨t, rfl, (List.min?_eq_some_iff.1 hall).2 s hmem⟩

namespace StepsAside

lemma unseen (h : StepsAside j w v) (hw : w.Confines S j) : Unseen S j w v := by
  cases h with
  | turn hfirst howns =>
    obtain ⟨houtline, hstrangers⟩ := hw.turn_owner (perm_of_firstReady? hfirst) howns
    refine ⟨.single (Acts.turn hfirst).step, houtline, hstrangers.trans ?_, .inl now_of_turn⟩
    obtain ⟨before, after, hactors, rfl, -⟩ := firstReady?_eq_some hfirst
    rw [hactors, strangers_append, strangers_append, strangers_of_owns howns]
  | wait hsettled hnow hbefore =>
    have hidle := hw.idle_of_settled hsettled
    refine ⟨.single (.wait hnow), rfl, rfl, .inr ⟨hidle, fun a ha => ?_⟩⟩
    exact Actor.not_isDue_of_lt (hidle a ha) fun s hs =>
      lt_of_lt_min? hbefore (List.mem_filterMap.2 ⟨a, ha, hs⟩)

lemma begins_eq (h : StepsAside j w v) (i : Nat) : w.begins i = [] := by
  cases h with
  | turn hfirst howns => exact begins_of_bystander hfirst rfl
  | wait hsettled hnow hbefore => exact begins_of_settled hsettled

lemma ofOthers_lives (h : StepsAside j w v) : ofOthers j w.lives = [] := by
  cases h with
  | @turn u i others hfirst howns =>
    obtain ⟨hinstance, hnumber⟩ : u.hasInstance = true ∧ u.instanceNumber = j := by
      simpa [Actor.owns] using howns
    refine ofOthers_eq_nil fun m hm => ?_
    rw [lives, hfirst] at hm
    cases hr : w.run? i with
    | none => simp [hr] at hm
    | some r =>
      simp only [hr] at hm
      obtain ⟨e, -, rfl⟩ := List.mem_map.1 hm
      exact (User.hasInstance_step hinstance _).1.trans hnumber
  | wait hsettled hnow hbefore =>
    rw [lives_of_settled hsettled]
    rfl

end StepsAside

/-! ### Steps that show -/

/-- What comes next in a world, not past an instant, if it shows. -/
inductive Shows (j : Nat) (limit : Millis) (w : World σ) : Option (World σ) → Prop
  | turn {a : Actor σ} {others : List (Actor σ)}
      (hfirst : w.firstReady? w.actors = some (a, others)) (hstranger : a.owns j = false) :
      Shows j limit w (some (w.turn a others))
  | wait {t : Millis} (hsettled : w.firstReady? w.actors = none)
      (ht : earliest (strangers j w.actors) = some t) (hlimit : t ≤ limit) :
      Shows j limit w (some { w with now := t })
  | rests (hsettled : w.firstReady? w.actors = none)
      (hlater : ∀ t, earliest (strangers j w.actors) = some t → limit < t) :
      Shows j limit w none

/-- What comes next in a world shows, or it does not. -/
lemma Staffed.shows_or_stepsAside (hw : w.Staffed) (j : Nat) (limit : Millis) :
    Shows j limit w (w.next? limit) ∨ ∃ v, w.next? limit = some v ∧ StepsAside j w v := by
  cases hfirst : w.firstReady? w.actors with
  | some next =>
    obtain ⟨a, others⟩ := next
    have hnext : w.next? limit = some (w.turn a others) := by rw [next?, hfirst]
    rw [hnext]
    cases howns : a.owns j with
    | false => exact .inl (.turn hfirst howns)
    | true =>
      cases a with
      | user i u => exact .inr ⟨_, rfl, .turn hfirst howns⟩
      | _ => cases howns
  | none =>
    rw [next?, hfirst]
    cases hall : earliest w.actors with
    | none =>
      refine .inl (.rests hfirst fun s hs => ?_)
      obtain ⟨t, ht, -⟩ := exists_earliest_le hs
      rw [hall] at ht
      cases ht
    | some t =>
      obtain ⟨a, ha, hdeadline⟩ := List.mem_filterMap.1 (List.min?_mem hall)
      have hlt := hw.lt_deadline ha (not_isReady_of_settled hfirst a ha) hdeadline
      have hle : ∀ s, earliest (strangers j w.actors) = some s → t ≤ s := by
        intro s hs
        obtain ⟨t', ht', hle⟩ := exists_earliest_le hs
        rw [hall] at ht'
        cases ht'
        exact hle
      simp only [Nat.max_eq_right (Nat.le_of_lt hlt)]
      split_ifs with hlimit
      · by_cases hstrangers : earliest (strangers j w.actors) = some t
        · exact .inl (.wait hfirst hstrangers hlimit)
        · refine .inr ⟨_, rfl, .wait hfirst (Nat.le_of_lt hlt) fun s hs => ?_⟩
          refine Nat.lt_of_le_of_ne (hle s hs) ?_
          rintro rfl
          exact hstrangers hs
      · refine .inl (.rests hfirst fun s hs => ?_)
        exact Nat.lt_of_lt_of_le (Nat.lt_of_not_le hlimit) (hle s hs)

/-! ### Worlds in step -/

lemma Confines.steps (h : w.Confines S j) (hv : Steps w v) : v.Confines S j := by
  induction hv with
  | refl => exact h
  | tail _ hstep ih => exact ih.step hstep

/-- Worlds that still resemble each other are twins still. -/
lemma Twins.of_steps (h : Twins j S w w') (hv : Steps w v) (hv' : Steps w' v')
    (hresembles : Resembles j S v v') : Twins j S v v' where
  toResembles := hresembles
  left := h.left.steps hv
  right := h.right.steps hv'
  templates k := by
    rw [h.left.reachable.template_steps hv, h.right.reachable.template_steps hv']
    exact h.templates k

lemma Twins.idle_iff (h : Twins j S w w') (hnow : w'.now = w.now) : w'.Idle S j ↔ w.Idle S j := by
  rw [Idle, Idle, hnow, h.outline]
  have hstrangers := h.strangers
  generalize strangers j w.actors = as at hstrangers
  generalize strangers j w'.actors = as' at hstrangers
  induction hstrangers with
  | nil => simp
  | cons ha _ ih =>
    rw [List.forall_mem_cons, List.forall_mem_cons, ha.isDue]
    exact and_congr_right fun _ => ih

/-- Two worlds that differ in one instance. Their clocks may be apart only while all the others
wait. -/
structure InStep (j : Nat) (S : Others σ) (w w' : World σ) : Prop extends Twins j S w w' where
  clocks : w'.now = w.now ∨ w.Idle S j ∧ w'.Idle S j

namespace InStep

/-- Two worlds remain in step through whatever does not show. -/
lemma unseen (h : InStep j S w w') (hv : Unseen S j w v) (hv' : Unseen S j w' v') :
    InStep j S v v' where
  toTwins := by
    refine h.toTwins.of_steps hv.steps hv'.steps ⟨?_, ?_⟩
    · rw [hv'.outline, hv.outline, h.outline]
    · rw [hv.strangers, hv'.strangers]
      exact h.strangers
  clocks := by
    rcases h.clocks with hnow | ⟨hidle, hidle'⟩
    · rcases hv.clocks with hsame | ⟨hidle, -⟩
      · rcases hv'.clocks with hsame' | ⟨hidle', -⟩
        · exact .inl (by rw [hsame', hsame, hnow])
        · exact .inr ⟨hv.idle ((h.idle_iff hnow).1 hidle'), hv'.idle hidle'⟩
      · exact .inr ⟨hv.idle hidle, hv'.idle ((h.idle_iff hnow).2 hidle)⟩
    · exact .inr ⟨hv.idle hidle, hv'.idle hidle'⟩

end InStep

/-! ### What shows of two worlds in step -/

section Together

variable (h : Twins j S w w') (hnow : w'.now = w.now)

include h hnow

/-- An operation starts the same work units in both. -/
lemma Twins.begins_eq {a a' : Actor σ} {others others' : List (Actor σ)}
    (hfirst : w.firstReady? w.actors = some (a, others))
    (hfirst' : w'.firstReady? w'.actors = some (a', others')) (halike : a.Alike j S a') :
    w'.begins i = w.begins i := by
  cases halike with
  | operation o =>
    by_cases ho : o.run = i
    · subst ho
      have hmem := mem_of_firstReady? hfirst
      obtain ⟨r, r', hr, hr', hruns⟩ := h.exists_runs (i := o.run) hmem rfl
      rw [begins_of_operation hfirst hr, begins_of_operation hfirst' hr', hnow,
        Operation.begins_of_outline hruns (h.left.blind o hmem)]
    · have hbystander : (.operation o : Actor σ).operates i = false := by
        simp [Actor.operates, ho]
      rw [begins_of_bystander hfirst hbystander, begins_of_bystander hfirst' hbystander]
  | _ => rw [begins_of_bystander hfirst rfl, begins_of_bystander hfirst' rfl]

end Together

namespace InStep

variable {starts starts' : List (Millis × WorkUnit)} {moments moments' : List (Moment σ)}

/-- Whatever does not show in the second of two worlds in step may go before. -/
lemma skip (h : InStep j S w w') (hx : Plays i limit w' starts moments x) :
    ∃ v moments', InStep j S w v ∧ Shows j limit v (v.next? limit) ∧
      Plays i limit v starts moments' x ∧ ofOthers j moments' = ofOthers j moments := by
  induction hx with
  | @rests w' hnext =>
    rcases h.right.reachable.staffed.shows_or_stepsAside j limit with hshows | ⟨v, hv, -⟩
    · exact ⟨w', [], h, hshows, .rests hnext, rfl⟩
    · rw [hnext] at hv
      cases hv
  | @goes w' v x starts moments hnext hplays ih =>
    rcases h.right.reachable.staffed.shows_or_stepsAside j limit with hshows | ⟨_, hv, haside⟩
    · exact ⟨w', _, h, hshows, .goes hnext hplays, rfl⟩
    · rw [hnext] at hv
      cases hv
      rw [haside.begins_eq, List.nil_append]
      have hunseen := haside.unseen h.right
      obtain ⟨y, moments', hy, hshows, hplays, hapart⟩ := ih (h.unseen (.refl w) hunseen)
      refine ⟨y, moments', hy, hshows, hplays, ?_⟩
      rw [hapart, ofOthers_append, haside.ofOthers_lives, List.nil_append]

end InStep

/-! ### Executions in which one instance differs -/

section Debut

variable {t t' : Template σ} {context : RunContext} {units : List WorkUnit} {stopAt : Option Millis}

end Debut

end World

end LoadTest
