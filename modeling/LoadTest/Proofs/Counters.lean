import LoadTest.Proofs.OperationTurns
import LoadTest.Proofs.Transactions

/-!
# Counters

A run counts the transactions of its users, and the recorder counts those of everyone, under names
that follow from the labels. `Counts` says what a change of the world adds to these counts: one
for each transaction that completes by it, and nothing else.
-/

namespace LoadTest

variable {σ : Type}

/-- The name of the counter that a transaction adds to. -/
def Labels.counter (labels : Labels) (succeeded : Bool) : String :=
  if succeeded then labels.success else labels.error

/-- How often the counter of a name has been incremented. -/
def Recorder.counter (r : Recorder) (name : String) : Nat :=
  match r.metrics.lookup name with
  | some (.counter n) => n
  | _ => 0

/-- The transactions of a run that have completed, with a failure or without. -/
def Run.tally (succeeded : Bool) (r : Run) : Nat :=
  if succeeded then r.context.shared.succeeded else r.context.shared.failed

lemma Run.tally_raise (r : Run) (succeeded : Bool) :
    r.raise.2.tally succeeded = r.tally succeeded := rfl

lemma Run.tally_countTransaction (r : Run) (succeeded counted : Bool) :
    ({ r with
        context := { r.context with shared := r.context.shared.countTransaction counted } } :
      Run).tally succeeded = r.tally succeeded + if counted = succeeded then 1 else 0 := by
  cases counted <;> cases succeeded <;> rfl

/-- What an operation does to a run does not count as a transaction. -/
lemma Errand.Performed.tally {r : Run} {e : Errand} {result : Result} (h : e.Performed r result)
    (succeeded : Bool) : result.run.tally succeeded = r.tally succeeded := by
  cases h with
  | create hraised hrun => rw [hrun]; rfl
  | count hrun => rw [hrun]; rfl
  | remove hraised hrun => rw [hrun]; rfl
  | abort hrun => rw [hrun]; rfl
  | raise hrun => rw [hrun, r.tally_raise]
  | idle hcount hrun => rw [hrun]

lemma Operation.tally_step (o : Operation) (now : Millis) (r : Run) (succeeded : Bool) :
    (o.step now r).1.tally succeeded = r.tally succeeded := by
  have hstepped := o.stepped now r
  generalize o.step now r = next at hstepped
  cases hstepped with
  | givesUp hhold => rfl
  | ends hhold hagenda => rfl
  | performs hhold hagenda hgoes hends => exact (Errand.performed now r _).tally succeeded

/-! ### Names -/

/-- The last two characters of a text. -/
def ending (s : String) : List Char := s.toList.reverse.take 2

lemma ending_append (s : String) {t : String} (ht : 2 ≤ t.length) : ending (s ++ t) = ending t := by
  rw [ending, String.toList_append, List.reverse_append, List.take_append_of_le_length, ending]
  rwa [List.length_reverse, String.length_toList]

lemma ending_counter (name : String) (succeeded : Bool) :
    ending ((Labels.ofName name).counter succeeded) =
      if succeeded then ['s', 's'] else ['r', 'o'] := by
  cases succeeded with
  | true => exact (ending_append ("stampede_" ++ name) (by decide)).trans (by decide)
  | false => exact (ending_append ("stampede_" ++ name) (by decide)).trans (by decide)

lemma ending_latency (name : String) : ending (Labels.ofName name).latency = ['y', 'c'] :=
  (ending_append ("stampede_" ++ name) (by decide)).trans (by decide)

lemma ending_liveUsersGauge (behavior : String) : ending (liveUsersGauge behavior) = ['s', 'r'] :=
  (ending_append ("stampede_" ++ behavior) (by decide)).trans (by decide)

lemma latency_ne_counter (name name' : String) (succeeded : Bool) :
    (Labels.ofName name').latency ≠ (Labels.ofName name).counter succeeded := by
  intro h
  have := congrArg ending h
  rw [ending_latency, ending_counter] at this
  cases succeeded <;> simp at this

lemma liveUsersGauge_ne_counter (behavior name : String) (succeeded : Bool) :
    liveUsersGauge behavior ≠ (Labels.ofName name).counter succeeded := by
  intro h
  have := congrArg ending h
  rw [ending_liveUsersGauge, ending_counter] at this
  cases succeeded <;> simp at this

/-- Every counter of a transaction has a name of its own. -/
lemma counter_eq_iff {name name' : String} {succeeded succeeded' : Bool} :
    (Labels.ofName name').counter succeeded' = (Labels.ofName name).counter succeeded ↔
      (Labels.ofName name', succeeded') = (Labels.ofName name, succeeded) := by
  constructor
  · intro h
    have hending := congrArg ending h
    rw [ending_counter, ending_counter] at hending
    have hsame : succeeded' = succeeded := by
      cases succeeded <;> cases succeeded' <;> simp at hending ⊢
    subst hsame
    have hname : name' = name := by
      cases succeeded' with
      | true =>
        have h : "stampede_" ++ name' ++ "_success" = "stampede_" ++ name ++ "_success" := h
        rwa [String.append_left_inj, String.append_right_inj] at h
      | false =>
        have h : "stampede_" ++ name' ++ "_error" = "stampede_" ++ name ++ "_error" := h
        rwa [String.append_left_inj, String.append_right_inj] at h
    rw [hname]
  · intro h
    obtain ⟨hlabels, rfl⟩ := Prod.mk.inj h
    rw [hlabels]

/-! ### Recordings -/

namespace Recorder

lemma lookup_cons (name n : String) (m : Metric) (ms : List (String × Metric)) :
    ((n, m) :: ms).lookup name = if n = name then some m else ms.lookup name := by
  by_cases h : n = name
  · simp [h]
  · simp [List.lookup_cons, beq_false_of_ne (Ne.symm h), h]

lemma lookup_alter (name name' : String) (f : Option Metric → Metric)
    (ms : List (String × Metric)) :
    (alter name' f ms).lookup name =
      if name' = name then some (f (ms.lookup name)) else ms.lookup name := by
  induction ms with
  | nil => simp only [alter, lookup_cons, List.lookup_nil]
  | cons p ms ih =>
    obtain ⟨n, m⟩ := p
    rw [alter]
    split_ifs with hn h h
    · rw [lookup_cons, lookup_cons, if_pos (hn.trans h), if_pos (hn.trans h)]
    · rw [lookup_cons, lookup_cons, if_neg (hn ▸ h), if_neg (hn ▸ h)]
    · rw [lookup_cons, lookup_cons, ih, if_pos h, if_neg (h ▸ hn), if_neg (h ▸ hn)]
    · rw [lookup_cons, lookup_cons, ih, if_neg h]

lemma counter_increment (r : Recorder) (name name' : String) :
    (r.increment name').counter name = r.counter name + if name' = name then 1 else 0 := by
  rw [counter, increment, lookup_alter, counter]
  split_ifs
  · cases r.metrics.lookup name with
    | none => rfl
    | some m => cases m <;> rfl
  · rfl

lemma counter_setGauge_of_ne {r : Recorder} {name name' : String} {value : Nat} (h : name' ≠ name) :
    (r.setGauge name' value).counter name = r.counter name := by
  rw [counter, setGauge, lookup_alter, if_neg h, counter]

lemma counter_observe_of_ne {r : Recorder} {name name' : String} {value : Nat} (h : name' ≠ name) :
    (r.observe name' value).counter name = r.counter name := by
  rw [counter, observe, lookup_alter, if_neg h, counter]

/-- A transaction adds to the counter of its own. -/
lemma counter_transaction (r : Recorder) (name name' : String) (succeeded succeeded' : Bool)
    (elapsed : Millis) :
    (r.transaction (Labels.ofName name') succeeded' elapsed).counter
        ((Labels.ofName name).counter succeeded) =
      r.counter ((Labels.ofName name).counter succeeded) +
        if (Labels.ofName name', succeeded') = (Labels.ofName name, succeeded) then 1 else 0 := by
  have hcounter : (if succeeded' then (Labels.ofName name').success
      else (Labels.ofName name').error) = (Labels.ofName name').counter succeeded' := rfl
  rw [transaction, hcounter, counter_increment, counter_observe_of_ne (latency_ne_counter _ _ _)]
  simp only [counter_eq_iff]

end Recorder

/-! ### Changes of the world -/

namespace World

variable {w v x : World σ} {i : Nat} {source : Option Nat} {cs ds : List (Labels × Bool)}

/-- Between two worlds some transactions have completed, in callbacks of users of a run or outside
of all runs. Each has been counted once, and nothing else has. -/
structure Counts (source : Option Nat) (cs : List (Labels × Bool)) (w v : World σ) : Prop where
  runs : ∀ i succeeded, (v.run? i).map (Run.tally succeeded) = (w.run? i).map fun r =>
    r.tally succeeded + if source = some i then cs.countP (·.2 == succeeded) else 0
  metrics : (∀ c ∈ cs, ∃ name, c.1 = Labels.ofName name) → ∀ name succeeded,
    v.recorder.counter ((Labels.ofName name).counter succeeded) =
      w.recorder.counter ((Labels.ofName name).counter succeeded) +
        cs.count (Labels.ofName name, succeeded)

/-- Nothing has been counted. -/
abbrev CountsNothing (w v : World σ) : Prop := Counts none [] w v

namespace Counts

lemma isSome_run? (h : Counts source cs w v) (j : Nat) : (v.run? j).isSome = (w.run? j).isSome := by
  have hrun := congrArg Option.isSome (h.runs j true)
  rwa [Option.isSome_map, Option.isSome_map] at hrun

lemma nothing (h : CountsNothing w v) : Counts source [] w v where
  runs i succeeded := by simpa using h.runs i succeeded
  metrics := h.metrics

lemma trans (hwv : Counts source cs w v) (hvx : Counts source ds v x) :
    Counts source (cs ++ ds) w x where
  runs i succeeded := by
    have hv := hwv.runs i succeeded
    rw [hvx.runs i succeeded]
    cases hr : w.run? i with
    | none => simp_all
    | some r =>
      rw [hr] at hv
      obtain ⟨q, hq, htally⟩ := Option.map_eq_some_iff.1 hv
      rw [hq, Option.map_some, Option.map_some, htally]
      split_ifs <;> simp [List.countP_append, Nat.add_assoc]
  metrics hnamed name succeeded := by
    rw [hvx.metrics fun c hc => hnamed c (List.mem_append_right _ hc),
      hwv.metrics fun c hc => hnamed c (List.mem_append_left _ hc), List.count_append,
      Nat.add_assoc]

lemma trans_nothing (hwv : Counts source cs w v) (hvx : CountsNothing v x) : Counts source cs w x :=
  List.append_nil cs ▸ hwv.trans hvx.nothing

lemma of_metrics (hruns : v.runs = w.runs) (hmetrics : v.recorder.metrics = w.recorder.metrics) :
    CountsNothing w v where
  runs i succeeded := by simp [run?, hruns]
  metrics _ name succeeded := by simp [Recorder.counter, hmetrics]

lemma refl (w : World σ) : CountsNothing w w := of_metrics rfl rfl

lemma setRun {r q : Run} (hr : w.run? i = some r)
    (hq : ∀ succeeded, q.tally succeeded = r.tally succeeded) : CountsNothing w (w.setRun i q) where
  runs j succeeded := by
    rw [run?_setRun hr]
    by_cases hj : i = j
    · subst hj
      simp [hr, hq]
    · simp [hj]
  metrics _ name succeeded := by rfl

lemma of_actors (w : World σ) (actors : List (Actor σ)) : CountsNothing w { w with actors } := by
  refine .of_metrics ?_ ?_ <;> rfl

end Counts

lemma countsNothing_log (w : World σ) (m : Message) (user : String) :
    CountsNothing w (w.log m user) := .of_metrics rfl rfl

lemma countsNothing_publish (w : World σ) (i : Nat) : CountsNothing w (w.publish i) := by
  rw [publish]
  split
  next => exact .refl w
  next r hr =>
    refine ⟨fun j succeeded => by simp [run?], fun _ name succeeded => ?_⟩
    exact Recorder.counter_setGauge_of_ne (liveUsersGauge_ne_counter _ _ _)

lemma countsNothing_foldl {α : Type} {f : World σ → α → World σ}
    (hf : ∀ w a, CountsNothing w (f w a)) (as : List α) (w : World σ) :
    CountsNothing w (as.foldl f w) := by
  induction as generalizing w with
  | nil => exact .refl w
  | cons a as ih => exact (hf w a).trans_nothing (ih (f w a))

/-! ### Effects and acts -/

/-- A transaction that completes is counted once, in the run and under its name. -/
lemma counts_transaction {r : Run} (hr : w.run? i = some r) (labels : Labels) (succeeded : Bool)
    (elapsed : Millis) (u : User σ) :
    Counts (some i) [(labels, succeeded)] w
      (applyEffect i u w (.deed (.transaction labels succeeded elapsed))) := by
  rw [applyEffect, hr]
  constructor
  case runs =>
    intro j succeeded'
    have hset := run?_setRun (w := w) (j := j) (q := { r with
      context := { r.context with shared := r.context.shared.countTransaction succeeded } }) hr
    refine (congrArg (Option.map _) hset).trans ?_
    by_cases hj : i = j
    · subst hj
      simp [hr, r.tally_countTransaction, List.countP_cons]
    · simp [hj]
  case metrics =>
    intro hnamed name succeeded'
    obtain ⟨name', rfl⟩ := hnamed (labels, succeeded) (List.mem_singleton_self _)
    simpa [List.count_cons] using
      w.recorder.counter_transaction name name' succeeded' succeeded elapsed

lemma counts_applyEffect (hi : (w.run? i).isSome) (u : User σ) (e : Effect) :
    Counts (some i) e.completion?.toList w (applyEffect i u w e) := by
  obtain ⟨r, hr⟩ := Option.isSome_iff_exists.1 hi
  cases e with
  | deed d =>
    cases d with
    | transaction labels succeeded elapsed => exact counts_transaction hr labels succeeded elapsed u
    | record label =>
      simp only [applyEffect, hr]
      refine Counts.nothing (.of_metrics ?_ ?_) <;> rfl
    | raise =>
      rw [applyEffect, hr]
      exact (Counts.setRun hr r.tally_raise).nothing
  | register mode =>
    have hset : ∀ x : World σ, x.run? i = some r → CountsNothing x
        ((x.setRun i
          { r with
            pool := r.pool.issueId.2.register { id := r.pool.issueId.1, mode }
            arriving := r.arriving.erase u.ticket }).publish i) := by
      intro x hx
      refine Counts.trans_nothing (.setRun hx ?_) (countsNothing_publish _ i)
      exact fun _ => rfl
    rw [applyEffect, hr]
    simp only
    split_ifs
    · exact ((countsNothing_log w _ "").trans_nothing (hset _ hr)).nothing
    · exact (hset w hr).nothing
  | leave =>
    have hset : CountsNothing w (w.setRun i { r with pool := r.pool.deregister u.id }) :=
      .setRun hr fun _ => rfl
    rw [applyEffect, hr]
    simp only
    split_ifs
    · exact (hset.trans_nothing (countsNothing_publish _ i)).nothing
    · exact hset.nothing
  | construct =>
    simp only [applyEffect, hr]
    refine Counts.nothing (.of_metrics ?_ ?_) <;> rfl
  | log m =>
    rw [applyEffect, hr]
    exact (countsNothing_log w m _).nothing
  | discard =>
    simp only [applyEffect, hr]
    refine Counts.nothing (.of_metrics ?_ ?_) <;> rfl

lemma counts_foldl_applyEffect (hi : (w.run? i).isSome) (u : User σ) (es : List Effect) :
    Counts (some i) (es.filterMap Effect.completion?) w (es.foldl (applyEffect i u) w) := by
  induction es generalizing w with
  | nil => exact (Counts.refl w).nothing
  | cons e es ih =>
    have hcounts := counts_applyEffect hi u e
    have hall := hcounts.trans (ih (hcounts.isSome_run? i ▸ hi))
    rw [List.filterMap_cons]
    cases he : e.completion? <;> simpa [he] using hall

lemma countsNothing_applyAct (i : Nat) (w : World σ) (a : Act) :
    CountsNothing w (applyAct i w a) := by
  cases a with
  | log m => exact countsNothing_log w m ""
  | publish => exact countsNothing_publish w i
  | launch ticket lifecycle => exact .refl w

lemma countsNothing_dropIfFree (w : World σ) (i : Nat) : CountsNothing w (w.dropIfFree i) := by
  rw [dropIfFree]
  split
  next => exact .refl w
  next r hr =>
    simp only
    split_ifs
    · refine Counts.trans_nothing (.setRun hr ?_) (countsNothing_log _ _ "")
      exact fun _ => rfl
    · exact .setRun hr fun _ => rfl
    · exact .refl w

/-! ### Turns -/

/-- By the turn of a user exactly those transactions are counted that complete by it. -/
theorem counts_turn_user {r : Run} (hr : w.run? i = some r) (u : User σ) (others : List (Actor σ)) :
    Counts (some i) (completions (u.milestones (w.viewOf r u))) w (w.turn (.user i u) others) := by
  have heffects := counts_foldl_applyEffect (i := i) (by rw [hr]; rfl) (u.step (w.viewOf r u)).1
    (u.step (w.viewOf r u)).2
  rw [u.completions_milestones] at heffects
  have hall := fun as => heffects.trans_nothing (.of_actors _ as)
  simp only [turn, hr]
  split_ifs <;> exact hall _

/-- By any other turn nothing is counted. -/
theorem countsNothing_turn {a : Actor σ} (ha : ∀ i u, a ≠ .user i u) (others : List (Actor σ)) :
    CountsNothing w (w.turn a others) := by
  cases a with
  | user i u => exact absurd rfl (ha i u)
  | watch i tick =>
    cases hr : w.run? i with
    | none =>
      simp only [turn, hr]
      exact Counts.of_actors w _
    | some r =>
      simp only [turn, hr]
      split_ifs
      · exact Counts.of_actors w _
      · have hset : CountsNothing { w with actors := others }
            (setRun { w with actors := others } i { r with pool := r.pool.abortAll.2 }) :=
          .setRun hr fun _ => rfl
        exact (Counts.of_actors w others).trans_nothing
          (hset.trans_nothing (countsNothing_log _ _ ""))
      · exact Counts.of_actors w _
  | alarm i due =>
    cases hr : w.run? i with
    | none =>
      simp only [turn, hr]
      exact Counts.of_actors w _
    | some r =>
      simp only [turn, hr]
      have hset : CountsNothing { w with actors := others }
          (setRun { w with actors := others } i r.raise.2) := .setRun hr r.tally_raise
      exact (Counts.of_actors w others).trans_nothing hset
  | operation o =>
    cases hr : w.run? o.run with
    | none =>
      simp only [turn, hr]
      exact Counts.of_actors w _
    | some r =>
      have hacts := (Counts.setRun hr (o.tally_step w.now r)).trans_nothing
        (countsNothing_foldl (countsNothing_applyAct o.run) (o.step w.now r).2.2 _)
      simp only [turn, hr]
      split_ifs
      · refine hacts.trans_nothing (Counts.trans_nothing ?_ (countsNothing_dropIfFree _ _))
        refine .of_metrics ?_ ?_ <;> rfl
      · exact hacts.trans_nothing (.of_actors _ _)
      · exact hacts.trans_nothing (.of_actors _ _)

end World

end LoadTest
