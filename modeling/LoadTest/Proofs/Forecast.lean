import LoadTest.Proofs.Balance
import LoadTest.Proofs.Timetable

/-!
# What an execution comes to

As long as the stop signal is not raised, an operation that executes a scenario follows its plan.
Once it is raised, all that is left is wound up at that instant. So the outcome is known beforehand
from the plan and the instant of the stop, and every step of the operation keeps to that forecast.
-/

namespace LoadTest

/-! ### Forecasts -/

/-- What is to come of an execution: the work units that it starts and when, the instant of its end,
the count of users that have been created by then, and whether it has been stopped. -/
structure Forecast where
  starts : List (Millis × WorkUnit) := []
  finish : Millis
  created : Nat
  stopped : Bool

/-- Does an instant come before the stop, if there is one? -/
def isBefore (stopAt : Option Millis) (t : Millis) : Bool := stopAt.all (t < ·)

/-- What a plan comes to if it is stopped at an instant. -/
def Plan.forecast (p : Plan) (stopAt : Option Millis) (created : Nat) : Forecast where
  starts := p.starts.filter fun s => isBefore stopAt s.1
  finish := stopAt.elim p.finish (min p.finish)
  created := created + p.creations.countP (isBefore stopAt)
  stopped := !isBefore stopAt p.finish

/-- The stop is none of the instants of a plan, and does not lie in the past. -/
def Plan.Evades (p : Plan) (now : Millis) (stopAt : Option Millis) : Prop :=
  ∀ s, stopAt = some s → now ≤ s ∧ s ∉ p.instants

namespace Plan

variable {p : Plan} {now : Millis} {stopAt : Option Millis} {created : Nat}

lemma Evades.isBefore_of_mem (h : p.Evades now stopAt) (hnow : now ∈ p.instants) :
    isBefore stopAt now = true := by
  cases stopAt with
  | none => rfl
  | some s =>
    obtain ⟨hle, hnot⟩ := h s rfl
    have hne : now ≠ s := fun heq => hnot (heq ▸ hnow)
    exact decide_eq_true (Nat.lt_of_le_of_ne hle hne)

lemma Evades.of_andThen {starts : List WorkUnit} {n : Nat}
    (h : ((opening now starts n).andThen p).Evades now stopAt) : p.Evades now stopAt := by
  intro s hs
  refine ⟨(h s hs).1, fun hmem => (h s hs).2 ?_⟩
  simp only [instants, andThen, List.map_append, List.mem_append, List.mem_singleton] at hmem ⊢
  tauto

/-- What happens before the stop is foreseen as it happens. -/
lemma forecast_andThen {starts : List WorkUnit} {n : Nat}
    (h : ((opening now starts n).andThen p).Evades now stopAt) :
    ((opening now starts n).andThen p).forecast stopAt created =
      { p.forecast stopAt (created + n) with
        starts := starts.map (fun u => (now, u)) ++ (p.forecast stopAt (created + n)).starts } := by
  have hstarts : (starts.map fun u => (now, u)).filter (fun s => isBefore stopAt s.1) =
      starts.map fun u => (now, u) := by
    refine List.filter_eq_self.2 fun s hs => ?_
    obtain ⟨u, hu, rfl⟩ := List.mem_map.1 hs
    refine h.isBefore_of_mem ?_
    simp only [instants, andThen, opening, List.map_append, List.mem_append]
    exact .inl (.inl (.inl (List.mem_map_of_mem hs)))
  have hcreations : (List.replicate n now).countP (isBefore stopAt) = n := by
    cases n with
    | zero => rfl
    | succ n =>
      have hnow : isBefore stopAt now = true := by
        refine h.isBefore_of_mem ?_
        simp [instants, andThen, opening]
      simp [List.countP_replicate, hnow]
  simp only [forecast, andThen, opening, List.filter_append, List.countP_append, hstarts,
    hcreations, Nat.add_assoc]

/-- Nothing of a plan is foreseen that is stopped before its beginning. -/
lemma forecast_of_notBefore (h : p.NotBefore now) :
    p.forecast (some now) created = ⟨[], now, created, true⟩ := by
  have hlater : ∀ t ∈ p.instants, isBefore (some now) t = false := by
    intro t ht
    exact decide_eq_false (Nat.not_lt.2 (h t ht))
  have hstarts : p.starts.filter (fun s => isBefore (some now) s.1) = [] := by
    refine List.filter_eq_nil_iff.2 fun s hs => ?_
    have hmem : s.1 ∈ p.instants := by
      simp only [instants, List.mem_append]
      exact .inl (.inl (List.mem_map_of_mem hs))
    rw [hlater s.1 hmem]
    exact Bool.false_ne_true
  have hcreations : p.creations.countP (isBefore (some now)) = 0 := by
    refine List.countP_eq_zero.2 fun t ht => ?_
    rw [hlater t (by simp [instants, ht])]
    exact Bool.false_ne_true
  rw [forecast, hstarts, hcreations, hlater p.finish (by simp [instants])]
  simp [Nat.min_eq_right h.finish]

end Plan

/-! ### Executions -/

/-- The agenda of a scenario under way that began at an instant. -/
inductive Closes (since : Millis) : List Errand → Prop
  | conclude : Closes since [.conclude since]
  | units (left : List WorkUnit) : Closes since [.units left since]
  | cons {e : Errand} {es : List Errand} (he : e.isInner = true) (hes : Closes since es) :
      Closes since (e :: es)

lemma Closes.append {since : Millis} {es fs : List Errand} (hfs : Closes since fs)
    (hes : ∀ e ∈ es, e.isInner = true) : Closes since (es ++ fs) := by
  induction es with
  | nil => exact hfs
  | cons e es ih =>
    obtain ⟨he, hes⟩ := List.forall_mem_cons.1 hes
    exact .cons he (ih hes)

/-- The number of users that are still to be counted. -/
def toCount (es : List Errand) : Nat := es.foldr (fun e n => e.counted + n) 0

lemma toCount_append (es fs : List Errand) : toCount (es ++ fs) = toCount es + toCount fs := by
  induction es with
  | nil => exact (Nat.zero_add _).symm
  | cons e es ih =>
    show e.counted + toCount (es ++ fs) = e.counted + toCount es + toCount fs
    rw [ih, Nat.add_assoc]

lemma toCount_eq_zero {es : List Errand} (h : ∀ e ∈ es, e.counted = 0) : toCount es = 0 := by
  induction es with
  | nil => rfl
  | cons e es ih =>
    obtain ⟨he, hes⟩ := List.forall_mem_cons.1 h
    show e.counted + toCount es = 0
    rw [he, ih hes]

lemma Errand.counted_of_isCount {e : Errand} (h : e.isCount = false) : e.counted = 0 := by
  cases e with
  | count amount mode => cases h
  | _ => rfl

namespace Operation

/-- The work units that a step of an operation begins with. -/
def begins (o : Operation) (now : Millis) (r : Run) : List WorkUnit :=
  if o.hold.isOver now r then
    match o.agenda with
    | e :: _ => e.begins r
    | [] => []
  else []

/-- What is ahead of an operation if nobody stops it. -/
def plan (o : Operation) (now : Millis) : Plan := agendaPlan (o.hold.until now) o.agenda

variable {o : Operation} {now since : Millis} {r : Run} {stopAt : Option Millis} {f : Forecast}

/-- The operation executes a scenario since some instant, without waiting for users to end. -/
structure Executes (o : Operation) (now since : Millis) : Prop where
  limit : o.limit = none
  keeps : ∀ e ∈ o.agenda, e.KeepsTime
  hold : o.hold.KeepsTime now
  counts : o.CountsArrivals
  closes : Closes since o.agenda ∨
    ∃ work, o.agenda = [.scenario work] ∧ o.hold = .free ∧ now = since

/-- What is to come of the operation: what its plan says, or the end once the signal is raised. -/
inductive Expects (o : Operation) (now : Millis) (r : Run) (stopAt : Option Millis) :
    Forecast → Prop
  | onTime (hraised : r.isRaised = false) (hevades : (o.plan now).Evades now stopAt) :
      Expects o now r stopAt ((o.plan now).forecast stopAt r.created)
  | stopped (hraised : r.isRaised = true) :
      Expects o now r stopAt ⟨[], now, r.created + toCount o.agenda, true⟩

/-- All that matters of the run is its signal and its count. -/
lemma Expects.of_run (h : o.Expects now r stopAt f) {q : Run} (hraised : q.isRaised = r.isRaised)
    (hcreated : q.created = r.created) : o.Expects now q stopAt f := by
  cases h with
  | onTime hraised' hevades => exact hcreated ▸ .onTime (hraised.trans hraised') hevades
  | stopped hraised' => exact hcreated ▸ .stopped (hraised.trans hraised')

/-- What is to come before the signal is raised. -/
lemma Expects.onTime_of_isRaised (h : o.Expects now r stopAt f) (hraised : r.isRaised = false) :
    (o.plan now).Evades now stopAt ∧ f = (o.plan now).forecast stopAt r.created := by
  cases h with
  | onTime _ hevades => exact ⟨hevades, rfl⟩
  | stopped hraised' =>
    rw [hraised] at hraised'
    cases hraised'

lemma notBefore_plan (h : o.hold.KeepsTime now) : (o.plan now).NotBefore now :=
  fun t ht => Nat.le_trans h.le_until (notBefore_agendaPlan _ _ t ht)

/-- Without a stop, time is up as soon as a hold is over. -/
lemma until_of_isOver (h : o.hold.KeepsTime now) (hover : o.hold.isOver now r = true)
    (hraised : r.isRaised = false) : o.hold.until now = now := by
  cases hhold : o.hold with
  | pause wakeAt =>
    rw [hhold] at h hover
    rw [Hold.isOver, hraised, Bool.or_false, decide_eq_true_eq] at hover
    exact Nat.le_antisymm hover h
  | clock wakeAt =>
    rw [hhold] at h
    exact absurd h not_false
  | _ => rfl

/-- The signal is raised: whatever was ahead is wound up. -/
lemma Executes.stopped (h : o.Executes now since) (hraised : r.isRaised = false)
    (hf : o.Expects now r (some now) f) {q : Run} (hq : q.isRaised = true)
    (hcreated : q.created = r.created) : o.Expects now q (some now) f := by
  obtain ⟨hevades, rfl⟩ := hf.onTime_of_isRaised hraised
  -- A creation that is to be counted is one of the instants of the plan.
  have hnothing : toCount o.agenda = 0 := by
    cases harrivals : o.hold.isArrivals with
    | false =>
      exact toCount_eq_zero fun e he => Errand.counted_of_isCount (h.counts.of_hold harrivals e he)
    | true =>
      obtain ⟨first, amount, hhold⟩ := Hold.eq_of_isArrivals harrivals
      have hcounts := h.counts
      rw [CountsArrivals, hhold] at hcounts
      obtain ⟨mode, rest, hagenda, hrest⟩ := hcounts
      have hamount : amount = 0 := by
        by_contra hne
        refine (hevades now rfl).2 ?_
        simp [plan, hhold, hagenda, Hold.until, agendaPlan, Errand.plan, Plan.instants,
          Plan.andThen, Plan.opening, hne]
      rw [hagenda, hamount]
      show 0 + toCount rest = 0
      rw [toCount_eq_zero fun e he => Errand.counted_of_isCount (hrest e he)]
  rw [Plan.forecast_of_notBefore (notBefore_plan h.hold), ← hcreated]
  have hstopped := @Expects.stopped o now q (some now) hq
  rwa [hnothing] at hstopped

/-! ### Steps -/

lemma step_of_outcome {e : Errand} {rest : List Errand} (hover : o.hold.isOver now r = true)
    (hagenda : o.agenda = e :: rest) {outcome : Outcome}
    (houtcome : (e.perform now r).outcome = some outcome) :
    o.step now r = ((e.perform now r).run, { o with agenda := [], hold := .free, outcome },
      (e.perform now r).acts) := by
  simp [step, hover, hagenda, houtcome]

lemma step_of_goesOn {e : Errand} {rest : List Errand} (hover : o.hold.isOver now r = true)
    (hagenda : o.agenda = e :: rest) (houtcome : (e.perform now r).outcome = none) :
    o.step now r = ((e.perform now r).run,
      { o with agenda := (e.perform now r).next ++ rest, hold := (e.perform now r).hold },
      (e.perform now r).acts) := by
  simp [step, hover, hagenda, houtcome]

/-- An execution sums up, or else goes on in a new agenda. -/
lemma Executes.cases (h : o.Executes now since) (r : Run) :
    ∃ e rest, o.agenda = e :: rest ∧ ((e = .conclude since ∧ rest = []) ∨
      (e.perform now r).outcome = none ∧ Closes since ((e.perform now r).next ++ rest)) := by
  have hkeeps := h.keeps
  rcases h.closes with hcloses | ⟨work, hagenda, -, rfl⟩
  · revert hkeeps
    generalize o.agenda = agenda at hcloses
    intro hkeeps
    cases hcloses with
    | conclude => exact ⟨_, [], rfl, .inl ⟨rfl, rfl⟩⟩
    | units left =>
      refine ⟨_, [], rfl, .inr ?_⟩
      cases left with
      | nil => exact ⟨rfl, .conclude⟩
      | cons unit left =>
        obtain ⟨hunit, -⟩ := List.forall_mem_cons.1 (hkeeps _ (List.mem_singleton_self _))
        rw [Errand.perform]
        split_ifs
        · exact ⟨rfl, .conclude⟩
        · exact ⟨rfl, .cons (WorkUnit.keepsTime_errand hunit).2 (.units left)⟩
    | @cons e es he hes =>
      obtain ⟨houtcome, hnext⟩ := (Errand.timely now r (hkeeps e (List.mem_cons_self ..))).inner he
      exact ⟨e, es, rfl, .inr ⟨houtcome, hes.append hnext⟩⟩
  · exact ⟨_, [], hagenda, .inr ⟨rfl, .units work⟩⟩

/-- Each step of an execution keeps to the forecast: it brings the outcome that was foreseen, or
begins with what was foreseen for that instant and leaves the rest of it. -/
theorem Executes.step (h : o.Executes now since) (hf : o.Expects now r stopAt f)
    (hover : o.hold.isOver now r = true) :
    ((o.step now r).2.1.isEnded = true ∧
        (o.step now r).2.1.outcome = .statistics (r.statistics (now - since)) ∧
        f = ⟨[], now, r.created, r.isRaised⟩ ∧ o.begins now r = []) ∨
      (o.step now r).2.1.isEnded = false ∧ (o.step now r).2.1.Executes now since ∧
        ∃ f', (o.step now r).2.1.Expects now (o.step now r).1 stopAt f' ∧
          f = { f' with starts := (o.begins now r).map (fun u => (now, u)) ++ f'.starts } := by
  obtain ⟨e, rest, hagenda, hcases⟩ := h.cases r
  have he : e.KeepsTime := h.keeps e (hagenda ▸ List.mem_cons_self ..)
  have hbegins : o.begins now r = e.begins r := by rw [begins, if_pos hover, hagenda]
  rw [hbegins]
  rcases hcases with ⟨rfl, rfl⟩ | ⟨houtcome, hcloses⟩
  · left
    rw [step_of_outcome hover hagenda rfl]
    refine ⟨rfl, rfl, ?_, rfl⟩
    cases hf with
    | stopped hraised => simp [hraised, hagenda, toCount, Errand.counted]
    | onTime hraised hevades =>
      have hplan : o.plan now = .rest now := by
        rw [plan, hagenda, until_of_isOver h.hold hover hraised, agendaPlan_singleton]
        rfl
      rw [hplan] at hevades ⊢
      have hnow : isBefore stopAt now = true :=
        hevades.isBefore_of_mem (by simp [Plan.instants, Plan.rest])
      have hfinish : stopAt.elim now (min now) = now := by
        cases stopAt with
        | none => rfl
        | some s => exact Nat.min_eq_left (hevades s rfl).1
      simp [Plan.forecast, Plan.rest, hnow, hfinish, hraised]
  · right
    have htimely := Errand.timely now r he
    have hcounts := h.counts.step now r
    rw [step_of_goesOn hover hagenda houtcome] at hcounts ⊢
    have hended : ((e.perform now r).next ++ rest).isEmpty = false := by
      cases hcloses' : (e.perform now r).next ++ rest with
      | nil =>
        rw [hcloses'] at hcloses
        cases hcloses
      | cons => rfl
    refine ⟨by simp [isEnded, hended],
      ⟨h.limit, fun e' he' => ?_, htimely.hold, hcounts, .inl hcloses⟩, ?_⟩
    · rcases List.mem_append.1 he' with he' | he'
      · exact htimely.keeps e' he'
      · exact h.keeps e' (hagenda ▸ List.mem_cons_of_mem _ he')
    · cases hf with
      | stopped hraised =>
        refine ⟨_, .stopped (htimely.isRaised.trans hraised), ?_⟩
        have hnone : e.begins r = [] := by
          unfold Errand.begins
          split <;> simp [hraised]
        rw [hnone, toCount_append, toCount_eq_zero (htimely.counted hraised), htimely.created,
          hagenda]
        simp [toCount, Nat.add_assoc]
      | onTime hraised hevades =>
        have hplan : o.plan now = (Plan.opening now (e.begins r) e.counted).andThen
            (agendaPlan ((e.perform now r).hold.until now) ((e.perform now r).next ++ rest)) := by
          rw [plan, hagenda, until_of_isOver h.hold hover hraised, agendaPlan,
            Errand.plan_eq_andThen he hraised, Plan.andThen_assoc, agendaPlan_append]
          rfl
        rw [hplan] at hevades ⊢
        refine ⟨_, .onTime (htimely.isRaised.trans hraised) hevades.of_andThen, ?_⟩
        rw [Plan.forecast_andThen hevades, ← htimely.created]
        rfl

end Operation

end LoadTest
