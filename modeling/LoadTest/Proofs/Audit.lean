import LoadTest.Proofs.Counters
import LoadTest.Proofs.Staffing
import Mathlib.Data.List.Count

/-!
# The account of all transactions

An audit of a world writes down whatever happens to a transaction, in callbacks of the users of any
run and outside of all runs, in any order of turns. What has been counted agrees with it at all
times: the counts of a run with the transactions of its own users, and the counters of a name with
the transactions of everyone.
-/

namespace LoadTest

variable {σ : Type}

/-- Something that has happened to a transaction, in a callback of a user of the run at a place, or
outside of all runs. -/
structure Incident where
  source : Option Nat
  labels : Labels
  milestone : Milestone
  deriving DecidableEq, Repr

namespace Incident

def of (source : Option Nat) (m : Labels × Milestone) : Incident := ⟨source, m.1, m.2⟩

lemma of_injective (source : Option Nat) : Function.Injective (of source) := by
  rintro ⟨l, m⟩ ⟨l', m'⟩ h
  cases h
  rfl

/-- Has a transaction of a source completed, with a failure or without? -/
def completes (source : Option Nat) (succeeded : Bool) (e : Incident) : Bool :=
  e.source == source && e.milestone == .completes succeeded

/-- Has a transaction of some labels completed, with a failure or without? -/
def reports (labels : Labels) (succeeded : Bool) (e : Incident) : Bool :=
  e.labels == labels && e.milestone == .completes succeeded

variable (source : Option Nat) (ms : List (Labels × Milestone))

lemma count_map_of (s : Option Nat) (labels : Labels) (milestone : Milestone) :
    (ms.map (of source)).count ⟨s, labels, milestone⟩ =
      if s = source then ms.count (labels, milestone) else 0 := by
  split_ifs with h
  · subst h
    exact List.count_map_of_injective ms _ (of_injective s) (labels, milestone)
  · refine List.count_eq_zero.2 fun hmem => ?_
    obtain ⟨m, -, heq⟩ := List.mem_map.1 hmem
    exact h (congrArg Incident.source heq).symm

lemma countP_completes_map_of (s : Option Nat) (succeeded : Bool) :
    (ms.map (of source)).countP (completes s succeeded) =
      if source = s then (completions ms).countP (·.2 == succeeded) else 0 := by
  induction ms with
  | nil => simp [completions]
  | cons m ms ih =>
    obtain ⟨labels, milestone⟩ := m
    rw [List.map_cons, List.countP_cons, ih]
    by_cases h : source = s
    · cases milestone <;> simp [h, completions, completes, of, List.countP_cons]
    · simp [h, completes, of]

lemma countP_reports_map_of (labels : Labels) (succeeded : Bool) :
    (ms.map (of source)).countP (reports labels succeeded) =
      (completions ms).count (labels, succeeded) := by
  induction ms with
  | nil => rfl
  | cons m ms ih =>
    obtain ⟨labels', milestone⟩ := m
    rw [List.map_cons, List.countP_cons, ih]
    cases milestone <;> simp [completions, reports, of, List.count_cons]

end Incident

/-! ### Outside of all runs -/

/-- A routine that is carried out outside of all runs, as an instance of a behavior. -/
structure Visitor (σ : Type) where
  behavior : String
  instanceNumber : Nat
  activation : Activation σ

namespace Visitor

variable (x : Visitor σ) (now : Millis)

/-- What others notice of a deed. There is no stop signal to raise, and no run to count anything. -/
def note (r : Recorder) : Deed → Recorder
  | .record label => r.event ⟨now, x.behavior, x.instanceNumber, label⟩
  | .transaction labels succeeded elapsed => r.transaction labels succeeded elapsed
  | .raise => r

/-- What is left of the routine after its next action, unless it is over. -/
def rest : List (Visitor σ) :=
  match (x.activation.step now none).1 with
  | .going a => [{ x with activation := a }]
  | _ => []

/-- The transactions that some routines outside of all runs are within. -/
def within (xs : List (Visitor σ)) : List Labels := xs.flatMap fun x => x.activation.within

/-- Every transaction is counted under its name. -/
lemma counter_foldl_note (r : Recorder) {deeds : List Deed}
    (hnamed : ∀ c ∈ deeds.filterMap Deed.completion?, ∃ name, c.1 = Labels.ofName name)
    (name : String) (succeeded : Bool) :
    (deeds.foldl (x.note now) r).counter ((Labels.ofName name).counter succeeded) =
      r.counter ((Labels.ofName name).counter succeeded) +
        (deeds.filterMap Deed.completion?).count (Labels.ofName name, succeeded) := by
  induction deeds generalizing r with
  | nil => rfl
  | cons d deeds ih =>
    cases d with
    | transaction labels succeeded' elapsed =>
      have hcons :
          (Deed.transaction labels succeeded' elapsed :: deeds).filterMap Deed.completion? =
            (labels, succeeded') :: deeds.filterMap Deed.completion? := List.filterMap_cons_some rfl
      rw [hcons] at hnamed ⊢
      obtain ⟨⟨name', rfl⟩, hrest⟩ := List.forall_mem_cons.1 hnamed
      rw [List.foldl_cons, ih _ hrest, note, r.counter_transaction, List.count_cons]
      simp only [beq_iff_eq]
      omega
    | _ => exact ih _ hnamed

lemma within_rest : within (x.rest now) = (x.activation.step now none).1.within := by
  rw [rest]
  cases (x.activation.step now none).1 <;> simp [within, Standing.within]

end Visitor

namespace World

variable {w v : World σ} {i : Nat} {r : Run}

/-- Carry out the next action of a routine outside of all runs. -/
def visit (w : World σ) (x : Visitor σ) : World σ :=
  { w with recorder := (x.activation.step w.now none).2.foldl (x.note w.now) w.recorder }

/-- Outside of all runs transactions are counted under their names only. -/
theorem counts_visit (w : World σ) (x : Visitor σ) :
    Counts none (completions x.activation.milestones) w (w.visit x) := by
  rw [← x.activation.completions_milestones w.now none]
  constructor
  case runs =>
    intro i succeeded
    simp [run?, visit]
  case metrics =>
    intro hnamed name succeeded
    exact x.counter_foldl_note w.now w.recorder hnamed name succeeded

/-! ### Transactions under way -/

/-- The transactions that some actors are within on behalf of the run at a place. -/
def within (i : Nat) (as : List (Actor σ)) : List Labels :=
  as.flatMap fun
    | .user j u => if j = i then u.phase.within else []
    | _ => []

/-- The transactions of a source that are under way. -/
def underway (as : List (Actor σ)) (xs : List (Visitor σ)) : Option Nat → List Labels
  | some i => within i as
  | none => Visitor.within xs

lemma within_append (i : Nat) (as bs : List (Actor σ)) :
    within i (as ++ bs) = within i as ++ within i bs := List.flatMap_append

lemma within_cons_of_ne {a : Actor σ} (ha : ∀ i u, a ≠ .user i u) (as : List (Actor σ)) :
    within i (a :: as) = within i as := by
  cases a with
  | user i u => exact absurd rfl (ha i u)
  | _ => rfl

lemma perm_within {as bs : List (Actor σ)} (h : as.Perm bs) : (within i as).Perm (within i bs) :=
  h.flatMap_right _

lemma actors_turn_user (hr : w.run? i = some r) (u : User σ) (others : List (Actor σ)) :
    (w.turn (.user i u) others).actors.Perm
      ((if (w.stepUser r u).isEnded then [] else [.user i (w.stepUser r u)]) ++ others) := by
  cases hended : (w.stepUser r u).isEnded with
  | true =>
    have hended : (u.step (w.viewOf r u)).1.isEnded = true := hended
    simp only [turn, hr, hended, if_true]
    exact .refl _
  | false =>
    have hended : (u.step (w.viewOf r u)).1.isEnded = false := hended
    simp only [turn, hr, hended, if_neg Bool.false_ne_true]
    split_ifs
    · exact List.perm_append_comm
    · exact .refl _

lemma within_turn_user (hr : w.run? i = some r) (u : User σ) (others : List (Actor σ)) (j : Nat) :
    (within j (w.turn (.user i u) others).actors).Perm
      (within j [.user i (w.stepUser r u)] ++ within j others) := by
  refine (perm_within (actors_turn_user hr u others)).trans (.of_eq ?_)
  rw [within_append]
  split_ifs with hended
  · have hover : (w.stepUser r u).phase.within = [] := User.within_of_isEnded hended
    simp [within, hover]
  · rfl

lemma within_newcomers (i j : Nat) (r : Run) (acts : List Act) :
    within j (w.newcomers i r acts) = [] := by
  refine List.flatMap_eq_nil_iff.2 fun a ha => ?_
  obtain ⟨t, ticket, lifecycle, -, -, rfl⟩ := mem_newcomers ha
  exact ite_self _

/-- Nobody else is within a transaction. -/
lemma within_turn {a : Actor σ} (ha : ∀ i u, a ≠ .user i u) (others : List (Actor σ)) (j : Nat) :
    (within j (w.turn a others).actors).Perm (within j others) := by
  cases a with
  | user i u => exact absurd rfl (ha i u)
  | watch i tick =>
    cases hr : w.run? i with
    | none =>
      simp only [turn, hr]
      exact .refl _
    | some r =>
      simp only [turn, hr]
      split_ifs
      · exact .refl _
      · exact .refl _
      · exact (perm_within List.perm_append_comm).trans (.of_eq (within_cons_of_ne (by simp) _))
  | alarm i due =>
    cases hr : w.run? i <;>
    · simp only [turn, hr]
      exact .refl _
  | operation o =>
    cases hr : w.run? o.run with
    | none =>
      simp only [turn, hr]
      exact .refl _
    | some r =>
      have hnew := w.within_newcomers o.run j (o.step w.now r).1 (o.step w.now r).2.2
      cases hended : (o.step w.now r).2.1.isEnded with
      | true =>
        obtain ⟨q, -, -, hactors, -⟩ := turn_operation_ends others hr hended
        rw [hactors, within_append, hnew, List.append_nil]
      | false =>
        refine (perm_within (perm_turn_operation others hr hended)).trans (.of_eq ?_)
        rw [within_cons_of_ne (by simp), within_append, hnew, List.append_nil]

/-! ### Accounts -/

variable {xs ys : List (Visitor σ)} {es : List Incident} {source : Option Nat}
  {ms : List (Labels × Milestone)}

/-- What is written down agrees with what has been counted and with what is under way. -/
structure Accounted (w : World σ) (xs : List (Visitor σ)) (es : List Incident) : Prop where
  tally : ∀ i r, w.run? i = some r → ∀ succeeded,
    r.tally succeeded = es.countP (Incident.completes (some i) succeeded)
  placed : ∀ e ∈ es, ∀ i, e.source = some i → (w.run? i).isSome
  resolved : ∀ source labels, es.count ⟨source, labels, .begins⟩ =
    (underway w.actors xs source).count labels + es.count ⟨source, labels, .completes true⟩ +
      es.count ⟨source, labels, .completes false⟩ + es.count ⟨source, labels, .isCutOff⟩
  named : (∀ e ∈ es, ∃ name, e.labels = Labels.ofName name) → ∀ name succeeded,
    w.recorder.counter ((Labels.ofName name).counter succeeded) =
      es.countP (Incident.reports (Labels.ofName name) succeeded)

/-- Something happens to transactions of one source. -/
structure Advance (source : Option Nat) (ms : List (Labels × Milestone)) (w : World σ)
    (xs : List (Visitor σ)) (v : World σ) (ys : List (Visitor σ)) : Prop where
  counts : Counts source (completions ms) w v
  placed : ∀ i, source = some i → (w.run? i).isSome
  resolves : Resolves (underway w.actors xs source) ms (underway v.actors ys source)
  others : ∀ s, s ≠ source → (underway v.actors ys s).Perm (underway w.actors xs s)

/-- Whatever happens to transactions is to be written down. -/
theorem Accounted.advance (hw : Accounted w xs es) (h : Advance source ms w xs v ys) :
    Accounted v ys (es ++ ms.map (.of source)) where
  tally i q hq succeeded := by
    have hrun := h.counts.runs i succeeded
    rw [hq] at hrun
    obtain ⟨r, hr, hqr⟩ := Option.map_eq_some_iff.1 hrun.symm
    rw [← hqr, hw.tally i r hr, List.countP_append, Incident.countP_completes_map_of]
  placed e he i hi := by
    rw [h.counts.isSome_run?]
    rcases List.mem_append.1 he with he | he
    · exact hw.placed e he i hi
    · obtain ⟨m, -, rfl⟩ := List.mem_map.1 he
      exact h.placed i hi
  resolved s labels := by
    have hresolved := hw.resolved s labels
    simp only [List.count_append, Incident.count_map_of]
    by_cases hs : s = source
    · subst hs
      have hresolves := h.resolves labels
      simp only [if_true]
      omega
    · have hothers := (h.others s hs).count_eq labels
      simp only [if_neg hs]
      omega
  named hnamed name succeeded := by
    rw [h.counts.metrics ?_ name succeeded,
      hw.named fun e he => hnamed e (List.mem_append_left _ he), List.countP_append,
      Incident.countP_reports_map_of]
    intro c hc
    obtain ⟨⟨labels, milestone⟩, hm, hcompletes⟩ := List.mem_filterMap.1 hc
    obtain ⟨name, hname⟩ := hnamed _ (List.mem_append_right _ (List.mem_map_of_mem hm))
    refine ⟨name, ?_⟩
    cases milestone <;> cases hcompletes
    exact hname

/-! ### Steps -/

/-- What happens to transactions by the turn of an actor. -/
def incidents (w : World σ) : Actor σ → List Incident
  | .user i u =>
    match w.run? i with
    | some r => (u.milestones (w.viewOf r u)).map (.of (some i))
    | none => []
  | _ => []

/-- Nothing is to be written down if nothing happens to transactions. -/
lemma Accounted.nothing (hw : Accounted w xs es) (hcounts : CountsNothing w v)
    (hactors : ∀ i, (within i v.actors).Perm (within i w.actors)) : Accounted v xs es := by
  have hnothing : Advance none [] w xs v xs :=
    { counts := hcounts
      placed := by simp
      resolves := .refl _
      others := fun s hs => by
        cases s with
        | none => exact absurd rfl hs
        | some i => exact hactors i }
  simpa using hw.advance hnothing

/-- By the turn of a user something happens to transactions of its run only. -/
lemma advance_turn_user (hr : w.run? i = some r) {u : User σ} {others : List (Actor σ)}
    (hactors : w.actors.Perm (.user i u :: others)) :
    Advance (some i) (u.milestones (w.viewOf r u)) w xs (w.turn (.user i u) others) xs := by
  have hbefore : ∀ j, (within j w.actors).Perm (within j [.user i u] ++ within j others) :=
    fun j => (perm_within hactors).trans (.of_eq (within_append j [.user i u] others))
  have hself : ∀ u' : User σ, within i [.user i u'] = u'.phase.within := by simp [within]
  refine ⟨counts_turn_user hr u others, fun j hj => ?_, fun labels => ?_, fun s hs => ?_⟩
  · cases hj
    rw [hr]
    rfl
  · have hresolves := u.resolves_step (w.viewOf r u) labels
    have hcount := (hbefore i).count_eq labels
    have hcount' := (within_turn_user hr u others i).count_eq labels
    rw [hself, List.count_append] at hcount hcount'
    simp only [underway]
    simp only [stepUser] at hcount'
    omega
  · cases s with
    | none => exact .refl _
    | some j =>
      have hne : i ≠ j := fun heq => hs (congrArg some heq.symm)
      have hapart : ∀ u' : User σ, within j [.user i u'] = [] := by simp [within, hne]
      have hturn := within_turn_user hr u others j
      have hbefore := hbefore j
      rw [hapart] at hturn hbefore
      exact hturn.trans hbefore.symm

theorem Accounted.turn (hw : Accounted w xs es) {a : Actor σ} {others : List (Actor σ)}
    (hactors : w.actors.Perm (a :: others)) (ha : (w.run? a.place).isSome) :
    Accounted (w.turn a others) xs (es ++ w.incidents a) := by
  by_cases huser : ∃ i u, a = .user i u
  · obtain ⟨i, u, rfl⟩ := huser
    obtain ⟨r, hr⟩ : ∃ r, w.run? i = some r := Option.isSome_iff_exists.1 ha
    have hincidents : w.incidents (.user i u) =
        (u.milestones (w.viewOf r u)).map (.of (some i)) := by rw [incidents, hr]
    rw [hincidents]
    exact hw.advance (advance_turn_user hr hactors)
  · have hother : ∀ i u, a ≠ .user i u := fun i u h => huser ⟨i, u, h⟩
    have hnone : w.incidents a = [] := by
      cases a with
      | user i u => exact absurd rfl (hother i u)
      | _ => rfl
    rw [hnone, List.append_nil]
    refine hw.nothing (countsNothing_turn hother others) fun i => ?_
    refine (within_turn hother others i).trans ((perm_within hactors).trans (.of_eq ?_)).symm
    exact within_cons_of_ne hother others

/-- Someone outside of all runs does something. -/
lemma Accounted.outside (hw : Accounted w xs es) (hcounts : Counts none (completions ms) w v)
    (hactors : v.actors = w.actors)
    (hresolves : Resolves (Visitor.within xs) ms (Visitor.within ys)) :
    Accounted v ys (es ++ ms.map (.of none)) := by
  refine hw.advance ⟨hcounts, by simp, hresolves, fun s hs => ?_⟩
  cases s with
  | none => exact absurd rfl hs
  | some i => exact .of_eq (congrArg (within i) hactors)

/-- Something is asked of a world. A run that is opened has counted nothing yet. -/
structure Asks (w v : World σ) : Prop where
  call : Call w v
  fresh : ∀ r, v.run? w.runs.length = some r → r.context.shared = {}

lemma asks_of_runs (hcall : Call w v) (hruns : v.runs.length = w.runs.length) : Asks w v where
  call := hcall
  fresh r hr := by
    rw [← hruns, run?_length] at hr
    cases hr

lemma asks_openRun {template : Nat} {context : RunContext}
    (htemplate : (w.template? template).isSome) (hshared : context.shared = {}) :
    Asks w (w.openRun template context).2 where
  call := .openRun context htemplate
  fresh r hr := by
    rw [run?_openRun, if_pos rfl] at hr
    cases hr
    exact hshared

/-- Whatever opens no run may be asked. -/
lemma asks_of_keeps (hcall : Call w v) (hkeeps : w.Keeps v) : Asks w v where
  call := hcall
  fresh q hq := by
    obtain ⟨r, hr, -⟩ := hkeeps.later.run' hq
    rw [run?_length] at hr
    cases hr

/-- Asking something of a world leaves the transactions alone. -/
lemma Call.within (hcall : Call w v) (i : Nat) : within i v.actors = within i w.actors := by
  cases hcall with
  | cast b =>
    rw [World.cast]
    split <;> rfl
  | openRun context htemplate => exact (within_append i _ _).trans (List.append_nil _)
  | submit horizon hrun hagenda => exact (within_append i _ _).trans (List.append_nil _)
  | raise j => exact congrArg (World.within i) (w.keeps_raise j).actors
  | raiseAt due hrun => rfl
  | abort j => exact congrArg (World.within i) (w.keeps_abort j).actors
  | release j => exact congrArg (World.within i) (w.keeps_release j).actors
  | log m => rfl

/-- Nothing has been written down about a run that is not there yet. -/
lemma Accounted.countP_completes_length (hw : Accounted w xs es) (succeeded : Bool) :
    es.countP (Incident.completes (some w.runs.length) succeeded) = 0 := by
  refine List.countP_eq_zero.2 fun e he hcompletes => ?_
  simp only [Incident.completes, Bool.and_eq_true, beq_iff_eq] at hcompletes
  have hplaced := hw.placed e he _ hcompletes.1
  rw [run?_length] at hplaced
  cases hplaced

lemma Accounted.openRun (hw : Accounted w xs es) (template : Nat) {context : RunContext}
    (hshared : context.shared = {}) : Accounted (w.openRun template context).2 xs es := by
  have hrun : ∀ i, (w.openRun template context).2.run? i =
      if i = w.runs.length then some { template, context } else w.run? i := fun _ => run?_openRun
  constructor
  case tally =>
    intro i r hr succeeded
    rw [hrun] at hr
    split_ifs at hr with hi
    · cases hr
      rw [hi, hw.countP_completes_length, Run.tally, hshared, ite_self]
    · exact hw.tally i r hr succeeded
  case placed =>
    intro e he i hi
    rw [hrun]
    split_ifs
    · rfl
    · exact hw.placed e he i hi
  case resolved =>
    intro source labels
    rw [hw.resolved]
    cases source with
    | none => rfl
    | some i =>
      have hwithin : World.within i (w.openRun template context).2.actors =
          World.within i w.actors := (within_append i _ _).trans (List.append_nil _)
      simp only [underway, hwithin]
  case named => exact hw.named

theorem Accounted.asks (hw : Accounted w xs es) (hasks : Asks w v) : Accounted v xs es := by
  obtain ⟨hcall, hfresh⟩ := hasks
  have hwithin := fun i => List.Perm.of_eq (hcall.within i)
  cases hcall with
  | cast b =>
    refine hw.nothing (.of_metrics ?_ ?_) hwithin <;>
    · rw [cast]
      split <;> rfl
  | openRun context htemplate => exact hw.openRun _ (hfresh _ (run?_openRun.trans (if_pos rfl)))
  | submit horizon hrun hagenda => exact hw.nothing (.of_metrics rfl rfl) hwithin
  | raise i =>
    cases hr : w.run? i with
    | none => rwa [raise, hr]
    | some r =>
      rw [raise_eq hr] at hwithin ⊢
      exact hw.nothing (.setRun hr r.tally_raise) hwithin
  | raiseAt due hrun => exact hw.nothing (.of_metrics rfl rfl) hwithin
  | abort i =>
    cases hr : w.run? i with
    | none => rwa [abort, hr]
    | some r =>
      rw [abort_eq hr] at hwithin ⊢
      refine hw.nothing (Counts.trans_nothing (.setRun hr ?_) (countsNothing_log _ _ "")) hwithin
      exact fun _ => rfl
  | release i =>
    cases hr : w.run? i with
    | none => rwa [release, hr]
    | some r =>
      rw [release, hr] at hwithin ⊢
      refine hw.nothing (Counts.trans_nothing (.setRun hr ?_) (countsNothing_dropIfFree _ _))
        hwithin
      exact fun _ => rfl
  | log m => exact hw.nothing (countsNothing_log w m "") hwithin

/-! ### Audits -/

/-- The worlds that a world without runs comes to, the routines that are then under way outside of
all runs, and what has happened to transactions on the way, in the order in which it happened. Every
run begins with a context of its own. -/
inductive Audit : World σ → List (Visitor σ) → List Incident → Prop
  | empty {w : World σ} (hruns : w.runs = []) (hactors : w.actors = [])
      (hmetrics : w.recorder.metrics = []) : Audit w [] []
  | turn {w : World σ} {xs : List (Visitor σ)} {es : List Incident} (h : Audit w xs es)
      {a : Actor σ} {before after : List (Actor σ)} (hactors : w.actors = before ++ a :: after)
      (hready : w.isReady a = true) : Audit (w.turn a (before ++ after)) xs (es ++ w.incidents a)
  | wait {w : World σ} {xs : List (Visitor σ)} {es : List Incident} (h : Audit w xs es)
      {now : Millis} (hnow : w.now ≤ now) : Audit { w with now } xs es
  | asks {w v : World σ} {xs : List (Visitor σ)} {es : List Incident} (h : Audit w xs es)
      (hasks : Asks w v) : Audit v xs es
  /-- A routine begins outside of all runs. -/
  | enter {w : World σ} {xs : List (Visitor σ)} {es : List Incident} (h : Audit w xs es)
      (behavior : String) (instanceNumber : Nat) (r : Routine σ) :
      Audit w (⟨behavior, instanceNumber, .begin r⟩ :: xs) es
  | visit {w : World σ} {xs : List (Visitor σ)} {es : List Incident} (h : Audit w xs es)
      {x : Visitor σ} {before after : List (Visitor σ)} (hxs : xs = before ++ x :: after)
      (hawake : ∀ t, x.activation.wakeAt = some t → t ≤ w.now) :
      Audit (w.visit x) (before ++ x.rest w.now ++ after)
        (es ++ x.activation.milestones.map (.of none))
  /-- A routine outside of all runs is dropped before its end. -/
  | drop {w : World σ} {xs : List (Visitor σ)} {es : List Incident} (h : Audit w xs es)
      {x : Visitor σ} {before after : List (Visitor σ)} (hxs : xs = before ++ x :: after) :
      Audit w (before ++ after)
        (es ++ (x.activation.within.map (·, .isCutOff)).map (.of none))

/-- What happens to transactions while a world steps on. -/
def incidentsUntil (stop : World σ → Bool) (limit : Millis) : (fuel : Nat) → World σ → List Incident
  | 0, _ => []
  | fuel + 1, w =>
    if stop w then []
    else
      match w.firstReady? w.actors with
      | some (a, others) => w.incidents a ++ incidentsUntil stop limit fuel (w.turn a others)
      | none =>
        match earliest w.actors with
        | some t =>
          if t ≤ limit then incidentsUntil stop limit fuel { w with now := max w.now t } else []
        | none => []

/-- A world that steps on by itself does so in one of the orders of turns. -/
lemma Audit.stepUntil (h : Audit w xs es) (stop : World σ → Bool) (limit : Millis) (fuel : Nat) :
    Audit (w.stepUntil stop limit fuel) xs (es ++ incidentsUntil stop limit fuel w) := by
  induction fuel generalizing w es with
  | zero =>
    rw [incidentsUntil, List.append_nil]
    exact h
  | succ fuel ih =>
    rw [World.stepUntil, incidentsUntil, next?]
    split_ifs with hstop
    · rwa [List.append_nil]
    cases hfirst : w.firstReady? w.actors with
    | some first =>
      obtain ⟨a, others⟩ := first
      obtain ⟨before, after, hactors, rfl, hready⟩ := firstReady?_eq_some hfirst
      rw [← List.append_assoc]
      exact ih (h.turn hactors hready)
    | none =>
      cases hearliest : earliest w.actors with
      | none => simpa using h
      | some t =>
        simp only
        split_ifs
        · exact ih (h.wait (Nat.le_max_left _ _))
        · rwa [List.append_nil]

lemma Audit.staffed (h : Audit w xs es) : w.Staffed := by
  induction h with
  | empty hruns hactors => exact staffed_of_empty hruns hactors
  | turn _ hactors hready ih => exact ih.step (.turn hactors hready)
  | wait _ hnow ih => exact ih.step (.wait hnow)
  | asks _ hasks ih => exact ih.call hasks.call
  | visit _ _ _ ih => exact ⟨ih.placed, ih.template, ih.run⟩
  | _ => assumption

lemma accounted_of_empty (hruns : w.runs = []) (hactors : w.actors = [])
    (hmetrics : w.recorder.metrics = []) : Accounted w [] [] where
  tally i r hr := by simp [run?, hruns] at hr
  placed := by simp
  resolved source labels := by
    cases source <;> simp [underway, within, Visitor.within, hactors]
  named _ name succeeded := by simp [Recorder.counter, hmetrics]

/-- Something happens to a routine, and the others are within the same transactions as before. -/
lemma resolves_beside {x : Visitor σ} (before after : List (Visitor σ))
    (h : Resolves x.activation.within ms (Visitor.within ys)) :
    Resolves (Visitor.within (before ++ x :: after)) ms
      (Visitor.within (before ++ ys ++ after)) := by
  intro labels
  have := h labels
  simp only [Visitor.within, List.flatMap_append, List.flatMap_cons, List.count_append] at this ⊢
  omega

/-- An audit agrees with what has been counted. -/
theorem Audit.accounted (h : Audit w xs es) : Accounted w xs es := by
  induction h with
  | empty hruns hactors hmetrics => exact accounted_of_empty hruns hactors hmetrics
  | @turn w xs es h a before after hactors hready ih =>
    refine ih.turn (hactors ▸ List.perm_middle) (h.staffed.placed a ?_).2
    rw [hactors]
    exact List.mem_append_right _ (List.mem_cons_self ..)
  | wait _ hnow ih => exact ih.nothing (.of_metrics rfl rfl) fun _ => .refl _
  | asks _ hasks ih => exact ih.asks hasks
  | @enter w xs es _ behavior number r ih =>
    have hresolves : Resolves (Visitor.within xs) []
        (Visitor.within (⟨behavior, number, .begin r⟩ :: xs)) := .refl _
    have hcounts : Counts none (completions []) w w := .refl w
    simpa using ih.outside hcounts rfl hresolves
  | @visit w xs es _ x before after hxs hawake ih =>
    subst hxs
    refine ih.outside (w.counts_visit x) rfl (resolves_beside before after ?_)
    rw [x.within_rest]
    exact x.activation.resolves_step w.now none
  | @drop w xs es _ x before after hxs ih =>
    subst hxs
    have hcut : Resolves x.activation.within (x.activation.within.map (·, .isCutOff))
        (Visitor.within ([] : List (Visitor σ))) := resolves_cutOff _
    have hcounts : Counts none (completions (x.activation.within.map (·, .isCutOff))) w w := by
      rw [completions_cutOff]
      exact .refl w
    simpa using ih.outside hcounts rfl (resolves_beside before after hcut)

/-- The transactions of a run are those of its own users that have completed. Of the transactions of
a source, all that have begun and are not under way have completed or have been cut off, and a
transaction that has been cut off has not completed. Whoever is outside of all runs changes none of
them, and a user changes no run but its own. Under a name the transactions of everyone are counted.
-/
theorem Audit.transactions (h : Audit w xs es) :
    (∀ i r, w.run? i = some r → ∀ elapsed,
      (r.statistics elapsed).succeeded = es.countP (Incident.completes (some i) true) ∧
        (r.statistics elapsed).failed = es.countP (Incident.completes (some i) false)) ∧
      (∀ source labels, es.count ⟨source, labels, .begins⟩ =
        (underway w.actors xs source).count labels + es.count ⟨source, labels, .completes true⟩ +
          es.count ⟨source, labels, .completes false⟩ + es.count ⟨source, labels, .isCutOff⟩) ∧
      (∀ x ∈ xs, (w.visit x).runs = w.runs) ∧
      (∀ i u others, .user i u ∈ w.actors → ∀ j, j ≠ i →
        (w.turn (.user i u) others).run? j = w.run? j) ∧
      ((∀ e ∈ es, ∃ name, e.labels = Labels.ofName name) → ∀ name,
        w.recorder.counter (Labels.ofName name).success =
            es.countP (Incident.reports (Labels.ofName name) true) ∧
          w.recorder.counter (Labels.ofName name).error =
            es.countP (Incident.reports (Labels.ofName name) false)) := by
  have hw := h.accounted
  refine ⟨fun i r hr elapsed => ⟨hw.tally i r hr true, hw.tally i r hr false⟩, hw.resolved,
    fun _ _ => rfl, fun i u others _ j hj => apart_turn_user.others j hj, fun hnamed name => ?_⟩
  exact ⟨hw.named hnamed name true, hw.named hnamed name false⟩

/-! Two users buy something again and again, and one of them is aborted while it does. In the end
someone looks at something outside of all runs. -/

def sale : Routine Unit :=
  .transact (.ofName "buy")
    (.transact (.ofName "look") (.finish () (some "nothing to see")) fun _ _ =>
      .sleep 50 (.finish () none))
    fun _ _ => .finish () none

def sales : Behavior Unit where
  name := "sales"
  taskSet := { tasks := [{ name := "sale", run := fun _ => sale }] }
  create _ := .ok ()
  setUp s := .finish s none
  beforeTask s := .finish s none
  afterTask s := .finish s none
  tearDown s := .finish s none
  word _ _ := 0

/-- Two runs with one user each. -/
def salesBegun : World Unit :=
  let w := (({} : World Unit).cast sales).2
  let w := (w.openRun 0 { runId := "1", watchInterval := 3600000 }).2
  let w := (w.openRun 0 { runId := "2", watchInterval := 3600000 }).2
  let w := (w.submit 0 [.create 1 .looped] none).2
  (w.submit 1 [.create 1 .looped] none).2

/-- The user of the first run is aborted after a minute. -/
def salesMidway : World Unit := (stepUntil (fun _ => false) 60 100 salesBegun).abort 0

def salesOver : World Unit := stepUntil (fun _ => false) 120 100 salesMidway

/-- A look at something, which is then bought or not. -/
def window : Routine Unit := .transact (.ofName "look") (.finish () none) fun _ _ => .finish () none

/-- Someone who looks at something outside of all runs, before and after it has begun to. -/
def looker : Visitor Unit := ⟨"sales", 0, .begin window⟩

def looking (now : Millis) : Visitor Unit :=
  ⟨"sales", 0,
    { routine := .finish () none, opened := [⟨.ofName "look", now, fun _ _ => .finish () none⟩] }⟩

lemma Audit.look {w : World Unit} (h : Audit w [] es) :
    ∃ xs, Audit ((w.visit looker).visit (looking w.now)) xs
      (es ++ [⟨none, .ofName "look", .begins⟩] ++ [⟨none, .ofName "look", .completes true⟩]) := by
  have hbegins : Audit (w.visit looker) [looking w.now] (es ++ [⟨none, .ofName "look", .begins⟩]) :=
    @Audit.visit _ _ _ _ (h.enter "sales" 0 window) looker [] [] rfl fun t ht => nomatch ht
  exact ⟨_, @Audit.visit _ _ _ _ hbegins (looking w.now) [] [] rfl fun t ht => nomatch ht⟩

def salesSeen : World Unit := (salesOver.visit looker).visit (looking salesOver.now)

/-- Everything that happens to transactions of sales. -/
def salesIncidents : List Incident :=
  incidentsUntil (fun _ => false) 60 100 salesBegun ++
      incidentsUntil (fun _ => false) 120 100 salesMidway ++
    [⟨none, .ofName "look", .begins⟩] ++ [⟨none, .ofName "look", .completes true⟩]

lemma audit_salesSeen :
    ∃ xs, Audit salesSeen xs salesIncidents := by
  have hbegun : Audit salesBegun [] [] :=
    .asks (.asks (.asks (.asks (.asks (.empty rfl rfl rfl) (asks_of_runs (.cast sales) rfl))
      (asks_openRun (by decide +kernel) rfl)) (asks_openRun (by decide +kernel) rfl))
      (asks_of_runs (.submit none (by decide +kernel) (by decide)) rfl))
      (asks_of_runs (.submit none (by decide +kernel) (by decide)) rfl)
  have hsteps := hbegun.stepUntil (fun _ => false) 60 100
  rw [List.nil_append] at hsteps
  have hmidway : Audit salesMidway [] _ := hsteps.asks (asks_of_keeps (.abort 0) (keeps_abort _ 0))
  exact (hmidway.stepUntil (fun _ => false) 120 100).look

lemma named_salesIncidents : ∀ e ∈ salesIncidents, ∃ name, e.labels = Labels.ofName name := by
  have hnamed : ∀ e ∈ salesIncidents, e.labels = .ofName "look" ∨ e.labels = .ofName "buy" := by
    decide +kernel
  exact fun e he => (hnamed e he).elim (⟨_, ·⟩) (⟨_, ·⟩)

/-- The purchase that is cut off counts in neither run, and the look from outside only under its
name. -/
theorem transactions_of_sales :
    ∃ r q, salesSeen.run? 0 = some r ∧ salesSeen.run? 1 = some q ∧
      salesIncidents.count ⟨some 0, .ofName "buy", .isCutOff⟩ = 1 ∧
      (r.statistics 0).succeeded = 1 ∧ (r.statistics 0).failed = 2 ∧
      (q.statistics 0).succeeded = 2 ∧ (q.statistics 0).failed = 3 ∧
      salesSeen.recorder.counter (Labels.ofName "look").success = 1 ∧
      salesSeen.recorder.counter (Labels.ofName "look").error = 5 := by
  have hcounts :
      (salesIncidents.count ⟨some 0, .ofName "buy", .isCutOff⟩,
        salesIncidents.countP (Incident.completes (some 0) true),
        salesIncidents.countP (Incident.completes (some 0) false),
        salesIncidents.countP (Incident.completes (some 1) true),
        salesIncidents.countP (Incident.completes (some 1) false),
        salesIncidents.countP (Incident.reports (.ofName "look") true),
        salesIncidents.countP (Incident.reports (.ofName "look") false)) =
      (1, 1, 2, 2, 3, 1, 5) := by
    decide +kernel
  simp only [Prod.mk.injEq] at hcounts
  obtain ⟨hcutOff, h₁, h₂, h₃, h₄, h₅, h₆⟩ := hcounts
  have hpresent : ∀ i < 2, (salesSeen.run? i).isSome := by decide +kernel
  obtain ⟨r, hr⟩ := Option.isSome_iff_exists.1 (hpresent 0 (by decide))
  obtain ⟨q, hq⟩ := Option.isSome_iff_exists.1 (hpresent 1 (by decide))
  obtain ⟨xs, h⟩ := audit_salesSeen
  obtain ⟨hruns, -, -, -, hnames⟩ := Audit.transactions h
  obtain ⟨hr₁, hr₂⟩ := hruns 0 r hr 0
  obtain ⟨hq₁, hq₂⟩ := hruns 1 q hq 0
  obtain ⟨hsuccess, herror⟩ := hnames named_salesIncidents "look"
  exact ⟨r, q, hr, hq, hcutOff, hr₁.trans h₁, hr₂.trans h₂, hq₁.trans h₃, hq₂.trans h₄,
    hsuccess.trans h₅, herror.trans h₆⟩

end World

end LoadTest
