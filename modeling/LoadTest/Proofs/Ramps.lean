import LoadTest.Proofs.Forecast
import LoadTest.Proofs.Resting
import LoadTest.Proofs.UnderWay

/-!
# Changes that are spread over time

A change that is spread over a span of time is made one user at a time, on a grid of instants from
the instant of the call on. Each single change comes with its pause, the last one too, whatever the
population is, and nothing is made once the stop signal is raised. Then the change is over at that
instant, and else at the end of its last pause.
-/

namespace LoadTest

variable {σ : Type}

/-! ### Single changes -/

/-- The change of a single user that an errand makes on a run, if it makes one. -/
def Errand.single? (r : Run) : Errand → Option Change
  | .create 1 lifecycle => if r.isRaised then none else some (.create lifecycle)
  | .remove 1 mode => if r.isRaised then none else some (.remove mode)
  | _ => none

/-- The change of a single user that the next step of an operation makes, if it makes one. -/
def Operation.single? (o : Operation) (now : Millis) (r : Run) : Option Change :=
  if o.hold.isOver now r then o.agenda.head?.bind (Errand.single? r) else none

/-- Where a spread change stands at an instant: how many single changes are left to be made, and
when the next of them is due. -/
inductive Change.Stands (c : Change) (step now : Millis) :
    List Errand → Hold → (left : Nat) → (due : Millis) → Prop
  | begins {amount : Nat} {span : Millis} (hpos : 0 < amount)
      (hstep : step = min (span / amount) maxMillis) :
      Stands c step now [.spread c amount span] .free amount now
  | looks {left : Nat} : Stands c step now [.paced c left step] .free left now
  | changes {left : Nat} : Stands c step now [c.errand, .pause c left step] .free (left + 1) now
  | arrives {left first amount : Nat} {mode : Mode} :
      Stands c step now [.count amount mode, .pause c left step] (.arrivals first amount) left
        (wakeTime now step)
  | pauses {left : Nat} : Stands c step now [.pause c left step] .free left (wakeTime now step)
  | rests {left : Nat} {wakeAt : Millis} (hnow : now ≤ wakeAt) :
      Stands c step now [.resume c left step wakeAt] (.pause wakeAt) left wakeAt

namespace Change.Stands

variable {c : Change} {step now due : Millis} {agenda : List Errand} {hold : Hold} {left : Nat}

lemma le_due (h : c.Stands step now agenda hold left due) : now ≤ due := by
  cases h with
  | rests hnow => exact hnow
  | arrives => exact le_wakeTime ..
  | pauses => exact le_wakeTime ..
  | _ => exact Nat.le_refl _

/-- While time passes, only a pause stays where it is. -/
lemma wait {left : Nat} {wakeAt now' : Millis} (h : now' ≤ wakeAt) :
    c.Stands step now' [.resume c left step wakeAt] (.pause wakeAt) left wakeAt := .rests h

end Change.Stands

namespace Operation

/-- The operation is about a spread change and nothing else, and nobody will give it up. -/
structure Spreads (o : Operation) (c : Change) (step now : Millis) (left : Nat) (due : Millis) :
    Prop where
  limit : o.limit = none
  outcome : o.outcome = .done
  stands : c.Stands step now o.agenda o.hold left due

variable {o : Operation} {c : Change} {step now due : Millis} {left : Nat} {r : Run}

/-- What a step of a spread change comes to: it is over, it goes on, or it makes a single change and
goes on. -/
inductive Advances (o o' : Operation) (c : Change) (step now : Millis) (r : Run) (left : Nat)
    (due : Millis) : Prop
  | ends (hsingle : o.single? now r = none) (hended : o'.isEnded = true)
      (houtcome : o'.outcome = .done) (hover : r.isRaised = true ∨ left = 0 ∧ due = now)
  | goesOn {left' : Nat} {due' : Millis} (hsingle : o.single? now r = none)
      (hended : o'.isEnded = false) (hspreads : o'.Spreads c step now left' due')
      (hsame : r.isRaised = false → left' = left ∧ due' = due)
  | changes {left' : Nat} (hsingle : o.single? now r = some c) (hended : o'.isEnded = false)
      (hspreads : o'.Spreads c step now left' (wakeTime now step)) (hleft : left = left' + 1)
      (hdue : due = now)

/-- A step that puts other errands in the place of one, and changes nobody. -/
lemma Spreads.goesOn (h : o.Spreads c step now left due) (hready : o.hold.isOver now r = true)
    {e : Errand} {rest : List Errand} (hagenda : o.agenda = e :: rest)
    (houtcome : (e.perform now r).outcome = none) (hsingle : e.single? r = none) (left' : Nat)
    (due' : Millis)
    (hstands : c.Stands step now ((e.perform now r).next ++ rest) (e.perform now r).hold left' due')
    (hsame : r.isRaised = false → left' = left ∧ due' = due) :
    Advances o (o.step now r).2.1 c step now r left due := by
  rw [step_of_goesOn hready hagenda houtcome]
  refine .goesOn ?_ ?_ ⟨h.limit, h.outcome, hstands⟩ hsame
  · simp [single?, hready, hagenda, hsingle]
  · cases hnext : (e.perform now r).next ++ rest with
    | nil =>
      rw [hnext] at hstands
      cases hstands
    | cons => simp [isEnded]

/-- A step that leaves nothing to be done. -/
lemma Spreads.ends (h : o.Spreads c step now left due) (hready : o.hold.isOver now r = true)
    {e : Errand} (hagenda : o.agenda = [e]) (houtcome : (e.perform now r).outcome = none)
    (hsingle : e.single? r = none) (hnext : (e.perform now r).next = [])
    (hhold : (e.perform now r).hold = .free) (hover : r.isRaised = true ∨ left = 0 ∧ due = now) :
    Advances o (o.step now r).2.1 c step now r left due := by
  rw [step_of_goesOn hready hagenda houtcome]
  refine .ends ?_ ?_ h.outcome hover
  · simp [single?, hready, hagenda, hsingle]
  · simp [isEnded, hnext, hhold]

/-- The step that makes a single change. -/
lemma Spreads.changes (h : o.Spreads c step now (left + 1) now)
    (hready : o.hold.isOver now r = true)
    (hagenda : o.agenda = [c.errand, .pause c left step]) (hraised : r.isRaised = false) :
    Advances o (o.step now r).2.1 c step now r (left + 1) now := by
  cases c with
  | create lifecycle =>
    rw [step_of_goesOn hready hagenda (by simp [Change.errand, Errand.perform, hraised])]
    refine .changes ?_ ?_ ⟨h.limit, h.outcome, ?_⟩ rfl rfl
    · simp [single?, hready, hagenda, Change.errand, Errand.single?, hraised]
    · simp [isEnded, Change.errand, Errand.perform, hraised]
    · simpa [Change.errand, Errand.perform, hraised] using .arrives
  | remove mode =>
    rw [step_of_goesOn hready hagenda (by simp [Change.errand, Errand.perform, hraised])]
    refine .changes ?_ ?_ ⟨h.limit, h.outcome, ?_⟩ rfl rfl
    · simp [single?, hready, hagenda, Change.errand, Errand.single?, hraised]
    · simp [isEnded, Change.errand, Errand.perform, hraised]
    · simpa [Change.errand, Errand.perform, hraised] using .pauses

/-- Each step of a spread change ends it, leads on, or makes one change. -/
theorem Spreads.advances (h : o.Spreads c step now left due) (hready : o.hold.isOver now r = true) :
    Advances o (o.step now r).2.1 c step now r left due := by
  have hstands := h.stands
  have hover := hready
  generalize hagenda : o.agenda = agenda at hstands
  generalize hhold : o.hold = hold at hstands hover
  cases hstands with
  | @begins _ span hpos hstep =>
    have hdelay : stepDelay left (.ofMillis span) = .ok step := by
      rw [stepDelay, if_neg (Nat.ne_of_gt hpos), Duration.millis_ofMillis, hstep]
    refine h.goesOn hready hagenda (by simp [Errand.perform, hdelay]) rfl left now ?_
      fun _ => ⟨rfl, rfl⟩
    simpa [Errand.perform, hdelay] using .looks
  | looks =>
    cases left with
    | zero => exact h.ends hready hagenda rfl rfl rfl rfl (.inr ⟨rfl, rfl⟩)
    | succ left =>
      cases hraised : r.isRaised with
      | true =>
        refine h.ends hready hagenda ?_ rfl ?_ ?_ (.inl hraised) <;> simp [Errand.perform, hraised]
      | false =>
        refine h.goesOn hready hagenda ?_ rfl (left + 1) now ?_ fun _ => ⟨rfl, rfl⟩
        · simp [Errand.perform, hraised]
        · simpa [Errand.perform, hraised] using .changes
  | @changes left =>
    cases hraised : r.isRaised with
    | true =>
      refine h.goesOn hready hagenda ?_ ?_ left (wakeTime now step) ?_ ?_
      · cases c <;> simp [Change.errand, Errand.perform, hraised]
      · cases c <;> simp [Change.errand, Errand.single?, hraised]
      · cases c <;> simpa [Change.errand, Errand.perform, hraised] using .pauses
      · simp [hraised]
    | false => exact h.changes hready hagenda hraised
  | arrives =>
    exact h.goesOn hready hagenda rfl rfl _ _ .pauses fun _ => ⟨rfl, rfl⟩
  | pauses =>
    exact h.goesOn hready hagenda rfl rfl _ _ (.rests (le_wakeTime ..)) fun _ => ⟨rfl, rfl⟩
  | rests hnow =>
    by_cases hdue : due ≤ now
    · have hdue' : due = now := Nat.le_antisymm hdue hnow
      refine h.goesOn hready hagenda rfl rfl left now ?_
        fun _ => ⟨rfl, hdue'.symm⟩
      simpa [Errand.perform, hdue] using .looks
    · have hraised : r.isRaised = true := by simpa [Hold.isOver, hdue] using hover
      exact h.ends hready hagenda rfl rfl (by simp [Errand.perform, hdue]) rfl (.inl hraised)

/-- A step of a spread change leaves the stop signal alone. -/
lemma Spreads.isRaised (h : o.Spreads c step now left due) (hready : o.hold.isOver now r = true) :
    (o.step now r).1.isRaised = r.isRaised := by
  obtain ⟨e, rest, hagenda, hkeeps⟩ : ∃ e rest, o.agenda = e :: rest ∧ e.KeepsTime := by
    have hstands := h.stands
    generalize o.agenda = agenda at hstands
    generalize o.hold = hold at hstands
    cases hstands with
    | begins hpos => exact ⟨_, _, rfl, hpos⟩
    | changes => exact ⟨_, _, rfl, by cases c <;> exact trivial⟩
    | _ => exact ⟨_, _, rfl, trivial⟩
  have htimely := (Errand.timely now r hkeeps).isRaised
  cases houtcome : (e.perform now r).outcome with
  | none => rwa [step_of_goesOn hready hagenda houtcome]
  | some outcome => rwa [step_of_outcome hready hagenda houtcome]

/-- The operation as if its pause were still to last, so that only the signal ends it. -/
def cutShort (o : Operation) (now : Millis) : Operation :=
  { o with
    agenda := o.agenda.map fun
      | .resume c left step _ => .resume c left step (now + 1)
      | e => e }

/-- Once the signal is raised, no step makes a change. -/
lemma single?_of_isRaised (hraised : r.isRaised = true) : o.single? now r = none := by
  have hnone (e : Errand) : e.single? r = none := by
    unfold Errand.single?
    split <;> simp [hraised]
  simp [single?, hnone]

end Operation

/-! ### Ramps -/

/-- A change that is asked for to be spread over a span of time: the number of the operation, the
place of its run, and the instant of the call. -/
structure Ramp where
  id : Nat
  run : Nat
  change : Change
  amount : Nat
  span : Millis
  start : Millis

/-- What is noted of a ramp: its single changes, the raise of the stop signal, and its end. -/
inductive RampEvent where
  | changes (c : Change) (time : Millis)
  | raised (time : Millis)
  | ends (time : Millis)
  deriving DecidableEq, Repr

def RampEvent.isEnd : RampEvent → Bool
  | .ends _ => true
  | _ => false

namespace Ramp

variable {x : Ramp} {k : Nat} {s : Millis}

def step (x : Ramp) : Millis := paceOf x.amount x.span

/-- The instant at which a single change is due, counted from zero. -/
def due (x : Ramp) (k : Nat) : Millis := x.start + k * x.step

/-- The instant at which the last pause is over. -/
def finish (x : Ramp) : Millis := x.due x.amount

/-- The first single changes, each at its instant. -/
def made (x : Ramp) (k : Nat) : List RampEvent :=
  (List.range k).map fun j => .changes x.change (x.due j)

lemma made_succ (x : Ramp) (k : Nat) :
    x.made (k + 1) = x.made k ++ [.changes x.change (x.due k)] := by
  simp [made, List.range_succ]

lemma due_succ (x : Ramp) (k : Nat) : x.due (k + 1) = x.due k + x.step := by
  rw [due, Nat.succ_mul, ← Nat.add_assoc, due]

lemma due_le (x : Ramp) {j k : Nat} (h : j ≤ k) : x.due j ≤ x.due k :=
  Nat.add_le_add_left (Nat.mul_le_mul_right _ h) _

/-- The single change that somebody's turn makes for the ramp, if it makes one. -/
def changed (x : Ramp) (u : World σ) : Option (Actor σ) → List RampEvent
  | some (.operation o) =>
    if o.id = x.id then
      ((u.run? x.run).bind (o.single? u.now)).toList.map fun c => .changes c u.now
    else []
  | _ => []

/-- The raise of the stop signal, if it comes between two worlds. -/
def signalled (x : Ramp) (u v : World σ) : List RampEvent :=
  if v.isRaised x.run && !u.isRaised x.run then [.raised v.now] else []

/-- The end of the operation, if it comes between two worlds. -/
def concluded (x : Ramp) (u v : World σ) : List RampEvent :=
  if (v.outcome? x.id).isSome && !(u.outcome? x.id).isSome then [.ends v.now] else []

/-- What is noted of the ramp when one world comes to the next. -/
def note (x : Ramp) (u : World σ) (a : Option (Actor σ)) (v : World σ) : List RampEvent :=
  x.changed u a ++ x.signalled u v ++ x.concluded u v

section Noting

variable {u v : World σ} {a : Option (Actor σ)}

lemma changed_eq_nil (h : ∀ p, a = some (.operation p) → p.id ≠ x.id) : x.changed u a = [] := by
  unfold changed
  split
  next o => exact if_neg (h o rfl)
  next => rfl

lemma changed_of_single? {o : Operation} {r : Run} (hid : o.id = x.id)
    (hr : u.run? x.run = some r) :
    x.changed u (some (.operation o)) =
      (o.single? u.now r).toList.map fun c => .changes c u.now := by
  rw [changed, if_pos hid, hr, Option.bind_some]

lemma signalled_eq_nil (h : v.isRaised x.run = u.isRaised x.run) : x.signalled u v = [] := by
  simp [signalled, h]

lemma signalled_eq (hu : u.isRaised x.run = false) (hv : v.isRaised x.run = true) :
    x.signalled u v = [.raised v.now] := by
  simp [signalled, hu, hv]

lemma concluded_of_pending (h : v.outcome? x.id = none) : x.concluded u v = [] := by
  simp [concluded, h]

lemma concluded_of_ended {outcome : Outcome} (h : u.outcome? x.id = some outcome) :
    x.concluded u v = [] := by
  simp [concluded, h]

lemma concluded_eq {outcome : Outcome} (hu : u.outcome? x.id = none)
    (hv : v.outcome? x.id = some outcome) : x.concluded u v = [.ends v.now] := by
  simp [concluded, hu, hv]

end Noting

/-- The signal is raised after some single changes: all that were due before have been made, and
none that is due later. -/
structure CutAt (x : Ramp) (k : Nat) (s : Millis) : Prop where
  le : k ≤ x.amount
  made : ∀ j < k, x.due j ≤ s
  missed : ∀ j < x.amount, x.due j < s → j < k
  time : s ≤ x.finish

/-- The logs of a ramp: it runs, it is cut short at the instant at which the signal is raised, or it
is completed, and the signal may be raised later. -/
inductive Logs (x : Ramp) : List RampEvent → Prop
  | runs {k : Nat} (hk : k ≤ x.amount) : Logs x (x.made k)
  | stops {k : Nat} {s : Millis} (hcut : x.CutAt k s) : Logs x (x.made k ++ [.raised s])
  | cut {k : Nat} {s : Millis} (hcut : x.CutAt k s) : Logs x (x.made k ++ [.raised s, .ends s])
  | completed : Logs x (x.made x.amount ++ [.ends x.finish])
  | raisedLater {s : Millis} (hs : x.finish ≤ s) :
      Logs x (x.made x.amount ++ [.ends x.finish, .raised s])

/-- Nothing is done after the signal is raised but to end. -/
lemma Logs.eq_of_raised {log : List RampEvent} (h : x.Logs (.raised s :: log)) :
    log = [] ∨ log = [.ends s] := by
  have hfirst {k : Nat} {after : List RampEvent} (heq : x.made k ++ after = .raised s :: log) :
      after = .raised s :: log := by
    cases k with
    | zero => exact heq
    | succ k => simp [made, List.range_succ_eq_map] at heq
  generalize hall : RampEvent.raised s :: log = all at h
  cases h with
  | runs => cases hfirst ((List.append_nil _).trans hall.symm)
  | stops =>
    cases hfirst hall.symm
    exact .inl rfl
  | cut =>
    cases hfirst hall.symm
    exact .inr rfl
  | completed => cases hfirst hall.symm
  | raisedLater => cases hfirst hall.symm

lemma exists_of_mem_signalled {u v : World σ} {e : RampEvent} (h : e ∈ x.signalled u v) :
    ∃ t, e = .raised t := by
  rw [signalled] at h
  split_ifs at h
  · exact ⟨_, List.mem_singleton.1 h⟩
  · cases h

end Ramp

namespace World

variable {w v : World σ} {x : Ramp} {o : Operation} {c : Change} {step due : Millis} {left : Nat}
  {log : List RampEvent}

/-- Time only passes while a spread change pauses. -/
lemma Staffed.pauses_of_settled (hw : w.Staffed) (hsettled : w.firstReady? w.actors = none)
    (ho : .operation o ∈ w.actors) {r : Run} (hr : w.run? o.run = some r)
    (h : o.Spreads c step w.now left due) :
    o.agenda = [.resume c left step due] ∧ o.hold = .pause due ∧ r.isRaised = false ∧
      w.now < due := by
  have hover := isOver_of_settled hsettled ho hr
  have hstands := h.stands
  generalize o.agenda = agenda at hstands
  generalize o.hold = hold at hstands hover
  cases hstands with
  | arrives => simp [Hold.isOver, Run.haveArrived, hw.arriving_of_settled hr hsettled] at hover
  | rests hnow =>
    rw [Hold.isOver, Bool.or_eq_false_iff, decide_eq_false_iff_not, Nat.not_le] at hover
    exact ⟨rfl, rfl, hover.2, hover.1⟩
  | _ => cases hover

/-- The operation of a ramp is under way: some changes are left to be made. -/
structure Ramps (w : World σ) (x : Ramp) (o : Operation) (left : Nat) (due : Millis) : Prop where
  underWay : ∃ others, w.UnderWay o others
  id : o.id = x.id
  run : o.run = x.run
  spreads : o.Spreads x.change (min (x.span / x.amount) maxMillis) w.now left due

namespace Ramps

lemma pending (h : w.Ramps x o left due) : w.outcome? x.id = none := by
  obtain ⟨_, hunderWay⟩ := h.underWay
  rw [← h.id]
  exact hunderWay.pending

/-- What may happen next while a ramp is under way. -/
inductive Next (w v : World σ) (x : Ramp) (o : Operation) (left : Nat) (due : Millis)
    (a : Option (Actor σ)) : Prop
  | ends (hv : v.HasEnded x.id .done) (hnow : v.now = w.now)
      (hraised : v.isRaised x.run = w.isRaised x.run) (hnote : x.note w a v = [.ends v.now])
      (hover : w.isRaised x.run = true ∨ left = 0 ∧ due = w.now)
  | goesOn {o' : Operation} {left' : Nat} {due' : Millis} (hv : v.Ramps x o' left' due')
      (hnow : v.now = w.now) (hnote : x.note w a v = x.signalled w v)
      (hsame : w.isRaised x.run = false → left' = left ∧ due' = due)
  | changes {o' : Operation} {left' : Nat} (hv : v.Ramps x o' left' (due + x.step))
      (hnow : v.now = w.now) (hunraised : w.isRaised x.run = false)
      (hraised : v.isRaised x.run = false) (hnote : x.note w a v = [.changes x.change w.now])
      (hleft : left = left' + 1) (hdue : due = w.now)
  | idle (hv : v.Ramps x o left due) (hnow : v.now ≤ due) (hle : w.now ≤ v.now)
      (hunraised : w.isRaised x.run = false) (hraised : v.isRaised x.run = false)
      (hnote : x.note w a v = [])

/-- The operation of a ramp has taken a step, and goes on. -/
lemma of_step (h : w.Ramps x o left due) {rest : List (Actor σ)} {r : Run} {left' : Nat}
    {due' : Millis}
    (hv : ∃ others, (w.turn (.operation o) rest).UnderWay (o.step w.now r).2.1 others)
    (hspreads : (o.step w.now r).2.1.Spreads x.change (min (x.span / x.amount) maxMillis) w.now
      left' due') : (w.turn (.operation o) rest).Ramps x (o.step w.now r).2.1 left' due' where
  underWay := hv
  id := (o.later_step w.now r).2.1.trans h.id
  run := (o.later_step w.now r).2.2.trans h.run
  spreads := now_of_turn (w := w) ▸ hspreads

/-- The operation of a ramp takes its turn. -/
lemma next_own (h : w.Ramps x o left due) (hw : w.Reachable) {others rest : List (Actor σ)}
    (hunderWay : w.UnderWay o others) (hrest : rest.Perm others)
    (hready : w.isReady (.operation o) = true) :
    Next w (w.turn (.operation o) rest) x o left due (some (.operation o)) := by
  obtain ⟨r, hr : w.run? o.run = some r⟩ := hw.staffed.exists_run hunderWay.mem
  have hraised : w.isRaised x.run = r.isRaised := isRaised_eq (h.run ▸ hr)
  have hover : o.hold.isOver w.now r = true := by
    rwa [isReady, hr, Option.any_some, Operation.isReady, Operation.isLate, h.spreads.limit,
      Option.any_none, Bool.or_false] at hready
  have hsame := h.spreads.isRaised hover
  have hchanged := Ramp.changed_of_single? h.id (h.run ▸ hr)
  cases h.spreads.advances hover with
  | ends hsingle hended houtcome hcases =>
    obtain ⟨hv, q, hq, hqraised⟩ := hunderWay.turn_ends hr hrest hended
    rw [houtcome, h.id] at hv
    have hv' : (w.turn (.operation o) rest).isRaised x.run = w.isRaised x.run := by
      rw [isRaised_eq (h.run ▸ hq), hqraised, hsame, hraised]
    refine .ends hv now_of_turn hv' ?_ (hraised ▸ hcases)
    rw [Ramp.note, hchanged, hsingle, Ramp.signalled_eq_nil hv',
      Ramp.concluded_eq h.pending hv.outcome]
    rfl
  | goesOn hsingle hended hspreads hsame' =>
    obtain ⟨hv, hq⟩ := hunderWay.turn_goesOn hr hrest hended
    have hv' : (w.turn (.operation o) rest).isRaised x.run = w.isRaised x.run := by
      rw [isRaised_eq (h.run ▸ hq), hsame, hraised]
    have hramps := h.of_step hv hspreads
    refine .goesOn hramps now_of_turn ?_ (hraised ▸ hsame')
    rw [Ramp.note, hchanged, hsingle, Ramp.concluded_of_pending hramps.pending]
    simp
  | changes hsingle hended hspreads hleft hdue =>
    obtain ⟨hv, hq⟩ := hunderWay.turn_goesOn hr hrest hended
    have hv' : (w.turn (.operation o) rest).isRaised x.run = w.isRaised x.run := by
      rw [isRaised_eq (h.run ▸ hq), hsame, hraised]
    have hunraised : r.isRaised = false := by
      by_contra hne
      rw [Operation.single?_of_isRaised (Bool.not_eq_false _ ▸ hne)] at hsingle
      cases hsingle
    have hdue' : wakeTime w.now (min (x.span / x.amount) maxMillis) = due + x.step := by
      rw [hdue, wakeTime, Nat.min_assoc, Nat.min_eq_right (by decide : longestSleep ≤ maxMillis)]
      rfl
    have hramps := h.of_step hv (hdue' ▸ hspreads)
    refine .changes hramps now_of_turn (hraised.trans hunraised)
      (hv'.trans (hraised.trans hunraised)) ?_ hleft hdue
    rw [Ramp.note, hchanged, hsingle, Ramp.signalled_eq_nil hv',
      Ramp.concluded_of_pending hramps.pending]
    rfl

/-- The step of a ramp. -/
theorem next (h : w.Ramps x o left due) (hw : w.Reachable) {a : Option (Actor σ)}
    (hnext : Happens w a v) : Next w v x o left due a := by
  obtain ⟨others, hunderWay⟩ := h.underWay
  cases hunderWay.next hw.staffed hnext with
  | own hrest hready hv =>
    subst hv
    exact h.next_own hw hunderWay hrest hready
  | other hid hv hnow =>
    have hv' : v.Ramps x o left due := ⟨⟨_, hv⟩, h.id, h.run, hnow.symm ▸ h.spreads⟩
    refine .goesOn hv' hnow ?_ fun _ => ⟨rfl, rfl⟩
    rw [Ramp.note, Ramp.changed_eq_nil (h.id ▸ hid), Ramp.concluded_of_pending hv'.pending]
    simp
  | @idle now hsettled hnow hdue hv =>
    obtain ⟨r, hr : w.run? o.run = some r⟩ := hw.staffed.exists_run hunderWay.mem
    obtain ⟨hagenda, hhold, hraised, hlt⟩ :=
      hw.staffed.pauses_of_settled hsettled hunderWay.mem hr h.spreads
    have hle : now ≤ due := hdue due (by simp [deadline?, hhold, h.spreads.limit, Hold.deadline?])
    have hunraised : w.isRaised x.run = false := (isRaised_eq (h.run ▸ hr)).trans hraised
    subst hv
    have hspreads : o.Spreads x.change (min (x.span / x.amount) maxMillis) now left due :=
      ⟨h.spreads.limit, h.spreads.outcome, by rw [hagenda, hhold]; exact .rests hle⟩
    have hv' : Ramps { w with now } x o left due :=
      ⟨⟨_, hunderWay.idle now⟩, h.id, h.run, hspreads⟩
    refine .idle hv' hle hnow hunraised hunraised ?_
    rw [Ramp.note, Ramp.changed_eq_nil (by simp), Ramp.concluded_of_pending hv'.pending,
      Ramp.signalled_eq_nil (u := w) (v := { w with now }) rfl]
    rfl

end Ramps

/-- The operation of a ramp is no more, so nothing but the signal is noted. -/
lemma HasEnded.note_eq {outcome : Outcome} (h : w.HasEnded x.id outcome) {a : Option (Actor σ)}
    (hnext : Happens w a v) : x.note w a v = x.signalled w v := by
  have hchanged : ∀ p, a = some (.operation p) → p.id ≠ x.id := by
    rintro p rfl
    cases hnext with
    | acts hfirst => exact h.gone p (mem_of_firstReady? hfirst)
  rw [Ramp.note, Ramp.changed_eq_nil hchanged, Ramp.concluded_of_ended h.outcome]
  simp

/-- Where a ramp stands, and what has been noted of it. -/
inductive RampState (x : Ramp) (w : World σ) : List RampEvent → Prop
  | runs {o : Operation} {k : Nat} (h : w.Ramps x o (x.amount - k) (x.due k)) (hk : k ≤ x.amount)
      (hmade : ∀ j < k, x.due j ≤ w.now) (hraised : w.isRaised x.run = false) :
      RampState x w (x.made k)
  | stops {o : Operation} {k left : Nat} {due : Millis} (h : w.Ramps x o left due)
      (hcut : x.CutAt k w.now) (hraised : w.isRaised x.run = true) :
      RampState x w (x.made k ++ [.raised w.now])
  | cut {k : Nat} {s : Millis} (h : w.HasEnded x.id .done) (hcut : x.CutAt k s)
      (hraised : w.isRaised x.run = true) : RampState x w (x.made k ++ [.raised s, .ends s])
  | completed (h : w.HasEnded x.id .done) (hnow : x.finish ≤ w.now)
      (hraised : w.isRaised x.run = false) : RampState x w (x.made x.amount ++ [.ends x.finish])
  | raisedLater {s : Millis} (h : w.HasEnded x.id .done) (hs : x.finish ≤ s)
      (hraised : w.isRaised x.run = true) :
      RampState x w (x.made x.amount ++ [.ends x.finish, .raised s])

namespace RampState

lemma logs (h : RampState x w log) : x.Logs log := by
  cases h with
  | runs _ hk => exact .runs hk
  | stops _ hcut => exact .stops hcut
  | cut _ hcut => exact .cut hcut
  | completed => exact .completed
  | raisedLater _ hs => exact .raisedLater hs

/-- While a ramp runs, the next thing that happens is a change on the grid, the end, the raise of
the signal, or nothing to the ramp. -/
lemma next_of_runs {k : Nat} (h : w.Ramps x o (x.amount - k) (x.due k)) (hk : k ≤ x.amount)
    (hmade : ∀ j < k, x.due j ≤ w.now) (hraised : w.isRaised x.run = false) (hw : w.Reachable)
    {a : Option (Actor σ)} (hnext : Happens w a v) :
    RampState x v (x.made k ++ x.note w a v) := by
  have hdue : w.now ≤ x.due k := h.spreads.stands.le_due
  cases h.next hw hnext with
  | ends hv hnow hraised' hnote hover =>
    obtain ⟨hleft, hfinish⟩ := hover.resolve_left (by simp [hraised])
    obtain rfl : k = x.amount := Nat.le_antisymm hk (Nat.le_of_sub_eq_zero hleft)
    rw [hnote, hnow, ← hfinish]
    exact .completed hv (by rw [hnow, ← hfinish]; rfl) (hraised'.trans hraised)
  | goesOn hv hnow hnote hsame =>
    obtain ⟨rfl, rfl⟩ := hsame hraised
    rw [hnote]
    cases hraised' : v.isRaised x.run with
    | false =>
      rw [Ramp.signalled_eq_nil (hraised'.trans hraised.symm), List.append_nil]
      exact .runs hv hk (hnow ▸ hmade) hraised'
    | true =>
      rw [Ramp.signalled_eq hraised hraised']
      refine .stops hv ⟨hk, hnow ▸ hmade, ?_, ?_⟩ hraised'
      · intro j hj hlt
        by_contra hge
        have hle := x.due_le (Nat.not_lt.1 hge)
        rw [hnow] at hlt
        exact absurd (Nat.lt_of_le_of_lt (Nat.le_trans hdue hle) hlt) (Nat.lt_irrefl _)
      · rw [hnow]
        exact Nat.le_trans hdue (x.due_le hk)
  | @changes o' left' hv hnow hunraised hraised' hnote hleft hdue' =>
    have hlt : k < x.amount := Nat.lt_of_sub_eq_succ hleft
    obtain rfl : left' = x.amount - (k + 1) := by omega
    rw [hnote, ← hdue', ← x.made_succ]
    rw [← x.due_succ] at hv
    refine .runs hv hlt (fun j hj => ?_) hraised'
    rw [hnow, ← hdue']
    exact x.due_le (Nat.le_of_lt_succ hj)
  | idle hv hnow hle hunraised hraised' hnote =>
    rw [hnote, List.append_nil]
    exact .runs hv hk (fun j hj => Nat.le_trans (hmade j hj) hle) hraised'

/-- Whatever happens next, a ramp keeps to its grid. -/
theorem next (h : RampState x w log) (hw : w.Reachable) {a : Option (Actor σ)}
    (hnext : Happens w a v) : RampState x v (log ++ x.note w a v) := by
  cases h with
  | runs h hk hmade hraised => exact next_of_runs h hk hmade hraised hw hnext
  | stops h hcut hraised =>
    have hraised' := hw.isRaised_happens hnext hraised
    cases h.next hw hnext with
    | ends hv hnow hsame hnote hover =>
      rw [hnote, hnow, List.append_assoc]
      exact .cut hv hcut hraised'
    | goesOn hv hnow hnote hsame =>
      rw [hnote, Ramp.signalled_eq_nil (hraised'.trans hraised.symm), List.append_nil, ← hnow]
      exact .stops hv (hnow ▸ hcut) hraised'
    | changes hv hnow hunraised => simp [hraised] at hunraised
    | idle hv hnow hle hunraised => simp [hraised] at hunraised
  | cut h hcut hraised =>
    have hraised' := hw.isRaised_happens hnext hraised
    rw [h.note_eq hnext, Ramp.signalled_eq_nil (hraised'.trans hraised.symm), List.append_nil]
    exact .cut (h.lapse hw.staffed hnext.lapse) hcut hraised'
  | completed h hnow hraised =>
    have hv := h.lapse hw.staffed hnext.lapse
    have hnow' := Nat.le_trans hnow hnext.now_le
    rw [h.note_eq hnext]
    cases hraised' : v.isRaised x.run with
    | false =>
      rw [Ramp.signalled_eq_nil (hraised'.trans hraised.symm), List.append_nil]
      exact .completed hv hnow' hraised'
    | true =>
      rw [Ramp.signalled_eq hraised hraised', List.append_assoc]
      exact .raisedLater hv hnow' hraised'
  | raisedLater h hs hraised =>
    have hraised' := hw.isRaised_happens hnext hraised
    rw [h.note_eq hnext, Ramp.signalled_eq_nil (hraised'.trans hraised.symm), List.append_nil]
    exact .raisedLater (h.lapse hw.staffed hnext.lapse) hs hraised'

/-- Whenever nobody is ready, the ramp is over, or it is in a pause and has kept to its grid. -/
lemma of_settled (h : RampState x w log) (hw : w.Staffed)
    (hsettled : w.firstReady? w.actors = none) :
    w.HasEnded x.id .done ∨
      ∃ o k, w.Ramps x o (x.amount - k) (x.due k) ∧ o.hold = .pause (x.due k) ∧ k ≤ x.amount ∧
        log = x.made k ∧ w.isRaised x.run = false ∧ w.now < x.due k ∧
        ∀ j < k, x.due j ≤ w.now := by
  cases h with
  | @runs o k h hk hmade hraised =>
    obtain ⟨others, hunderWay⟩ := h.underWay
    obtain ⟨r, hr : w.run? o.run = some r⟩ := hw.exists_run hunderWay.mem
    obtain ⟨-, hhold, -, hlt⟩ := hw.pauses_of_settled hsettled hunderWay.mem hr h.spreads
    exact .inr ⟨o, k, h, hhold, hk, rfl, hraised, hlt, hmade⟩
  | @stops o k left due h hcut hraised =>
    obtain ⟨others, hunderWay⟩ := h.underWay
    obtain ⟨r, hr : w.run? o.run = some r⟩ := hw.exists_run hunderWay.mem
    obtain ⟨-, -, hunraised, -⟩ := hw.pauses_of_settled hsettled hunderWay.mem hr h.spreads
    rw [isRaised_eq (h.run ▸ hr), hunraised] at hraised
    cases hraised
  | cut h => exact .inl h
  | completed h => exact .inl h
  | raisedLater h => exact .inl h

/-- Nobody else has the number of the ramp. -/
lemma ramps_of_mem (h : RampState x w log) (ho : .operation o ∈ w.actors) (hid : o.id = x.id) :
    ∃ left due, w.Ramps x o left due := by
  have hsame {p : Operation} {left : Nat} {due : Millis} (hp : w.Ramps x p left due) : o = p := by
    obtain ⟨others, hunderWay⟩ := hp.underWay
    obtain ho | ho := List.mem_cons.1 (hunderWay.actors.mem_iff.1 ho)
    · exact Actor.operation.inj ho
    · exact absurd (hid.trans hp.id.symm) (hunderWay.alone o ho)
  cases h with
  | runs h => exact ⟨_, _, hsame h ▸ h⟩
  | stops h => exact ⟨_, _, hsame h ▸ h⟩
  | cut h => exact absurd hid (h.gone o ho)
  | completed h => exact absurd hid (h.gone o ho)
  | raisedLater h => exact absurd hid (h.gone o ho)

/-- The operation has ended without failure exactly if its end has been noted. -/
lemma outcome (h : RampState x w log) :
    w.outcome? x.id = if log.any RampEvent.isEnd then some .done else none := by
  have hmade (k : Nat) : (x.made k).any RampEvent.isEnd = false := by
    simp [Ramp.made, RampEvent.isEnd]
  cases h with
  | runs h => simp [h.pending, hmade]
  | stops h => simp [h.pending, hmade, RampEvent.isEnd]
  | cut h => simp [h.outcome, RampEvent.isEnd]
  | completed h => simp [h.outcome, RampEvent.isEnd]
  | raisedLater h => simp [h.outcome, RampEvent.isEnd]

end RampState

/-- A change that is asked of a run is to be spread over a span of time. -/
def rampOf (w : World σ) (i : Nat) (c : Change) (amount : Nat) (span : Millis) : Ramp :=
  { id := w.nextOperation, run := i, change := c, amount, span, start := w.now }

def spread (w : World σ) (i : Nat) (c : Change) (amount : Nat) (span : Millis) : World σ :=
  (w.submit i [.spread c amount span] none).2

variable {i : Nat} {r : Run}

/-- A ramp that has just been asked for. If its signal is raised already, it is as if it had been
raised now. -/
lemma rampState_spread (hw : w.Reachable) (hr : w.run? i = some r)
    (hnew : w.outcome? w.nextOperation = none) (c : Change) {amount : Nat} (span : Millis)
    (hpos : 0 < amount) :
    RampState (w.rampOf i c amount span) (w.spread i c amount span)
      (if r.isRaised then [.raised w.now] else []) := by
  have hstart : (w.rampOf i c amount span).due 0 = w.now := by simp [Ramp.due, rampOf]
  have hramps : (w.spread i c amount span).Ramps (w.rampOf i c amount span)
      { id := w.nextOperation, run := i, agenda := [.spread c amount span] } amount
      ((w.rampOf i c amount span).due 0) :=
    ⟨⟨_, underWay_submit hw hnew i _⟩, rfl, rfl, rfl, rfl, hstart.symm ▸ .begins hpos rfl⟩
  have hraised : (w.spread i c amount span).isRaised i = r.isRaised := isRaised_eq hr
  cases hr' : r.isRaised with
  | false =>
    exact .runs (k := 0) hramps (Nat.zero_le _) (by simp) (hraised.trans hr')
  | true =>
    refine .stops (k := 0) hramps ⟨Nat.zero_le _, by simp, fun j hj hlt => ?_, ?_⟩
      (hraised.trans hr')
    · exact absurd hlt (Nat.not_lt.2 (Nat.le_add_right ..))
    · exact Nat.le_add_right ..

/-! ### No change at all -/

/-- A ramp of no change at all is refused: it is to fail right away, or has failed. -/
inductive Refuses (x : Ramp) (w : World σ) (log : List RampEvent) : Prop
  | asked {o : Operation} {others : List (Actor σ)} (h : w.UnderWay o others) (hid : o.id = x.id)
      (hrun : o.run = x.run) (hagenda : o.agenda = [.spread x.change 0 x.span])
      (hhold : o.hold = .free) (hnow : w.now = x.start) (hlog : ∀ e ∈ log, ∃ t, e = .raised t)
  | failed (h : w.HasEnded x.id (.failed (.zeroAmount (.ofMillis x.span))))
      (hlog : ∀ e ∈ log, e = .ends x.start ∨ ∃ t, e = .raised t)

namespace Refuses

/-- The step of an operation that spreads no change: it fails, and leaves the run as it is. -/
lemma step_of_spread (now : Millis) (r : Run) {c : Change} {span : Millis}
    (hagenda : o.agenda = [.spread c 0 span]) (hhold : o.hold = .free) :
    o.step now r =
      (r, { o with agenda := [], hold := .free, outcome := .failed (.zeroAmount (.ofMillis span)) },
        []) := by
  have hover : o.hold.isOver now r = true := by rw [hhold]; rfl
  exact Operation.step_of_outcome hover hagenda rfl

theorem next (h : Refuses x w log) (hw : w.Reachable) {a : Option (Actor σ)}
    (hnext : Happens w a v) : Refuses x v (log ++ x.note w a v) := by
  cases h with
  | @asked o others h hid hrun hagenda hhold hnow hlog =>
    obtain ⟨r, hr : w.run? o.run = some r⟩ := hw.staffed.exists_run h.mem
    cases h.next hw.staffed hnext with
    | @own rest hrest hready hv =>
      subst hv
      have hstep := step_of_spread w.now r hagenda hhold
      obtain ⟨hv, q, hq, hraised⟩ := h.turn_ends hr hrest (by rw [hstep]; rfl)
      rw [hstep, hid] at hv
      rw [hstep] at hraised
      have hsignal : (w.turn (.operation o) rest).isRaised x.run = w.isRaised x.run := by
        rw [isRaised_eq (hrun ▸ hq), hraised, isRaised_eq (hrun ▸ hr)]
      have hsingle : o.single? w.now r = none := by
        simp [Operation.single?, hagenda, hhold, Hold.isOver, Errand.single?]
      refine .failed hv fun e he => ?_
      rw [Ramp.note, Ramp.changed_of_single? hid (hrun ▸ hr), hsingle,
        Ramp.signalled_eq_nil hsignal, Ramp.concluded_eq (hid ▸ h.pending) hv.outcome, now_of_turn,
        hnow] at he
      obtain he | he := List.mem_append.1 he
      · exact .inr (hlog e he)
      · exact .inl (by simpa using he)
    | other hid' hv hnow' =>
      have hpending : v.outcome? x.id = none := hid ▸ hv.pending
      refine .asked hv hid hrun hagenda hhold (hnow'.trans hnow) fun e he => ?_
      rw [Ramp.note, Ramp.changed_eq_nil (hid ▸ hid'), Ramp.concluded_of_pending hpending,
        List.nil_append, List.append_nil] at he
      exact (List.mem_append.1 he).elim (hlog e) Ramp.exists_of_mem_signalled
    | idle hsettled =>
      have hover := isOver_of_settled hsettled h.mem hr
      rw [hhold] at hover
      cases hover
  | failed h hlog =>
    refine .failed (h.lapse hw.staffed hnext.lapse) fun e he => ?_
    rw [h.note_eq hnext] at he
    exact (List.mem_append.1 he).elim (hlog e) fun he => .inr (Ramp.exists_of_mem_signalled he)

end Refuses

/-! ### A pause that is over while the signal is raised -/

/-- The world but for its log messages. -/
def muted (w : World σ) : World σ := { w with recorder := { w.recorder with entries := #[] } }

lemma muted_dropIfFree (w : World σ) (i : Nat) :
    (w.dropIfFree i).muted = (w.muted.dropIfFree i).muted := by
  have hrun : w.muted.run? i = w.run? i := rfl
  have hheld : w.muted.isHeld i = w.isHeld i := rfl
  rw [dropIfFree, dropIfFree, hrun, hheld]
  cases w.run? i with
  | none => rfl
  | some r =>
    simp only
    split_ifs <;> rfl

lemma muted_foldl_log {acts : List Act} (hacts : ∀ a ∈ acts, ∃ m, a = .log m) (i : Nat)
    (w : World σ) : (acts.foldl (applyAct i) w).muted = w.muted := by
  induction acts generalizing w with
  | nil => rfl
  | cons a as ih =>
    obtain ⟨⟨m, rfl⟩, has⟩ := List.forall_mem_cons.1 hacts
    rw [List.foldl_cons, ih has]
    rfl

lemma setRun_self (hr : w.run? i = some r) : w.setRun i r = w := by
  have hruns : w.runs.set i r = w.runs := by
    obtain ⟨hi, hget⟩ := List.getElem?_eq_some_iff.1 hr
    rw [← hget, List.set_getElem_self]
  rw [setRun, hruns]

/-- An operation ends by a turn at which it does nothing but log. -/
lemma muted_turn_ends {rest : List (Actor σ)} (hr : w.run? o.run = some r) {acts : List Act}
    (hacts : ∀ a ∈ acts, ∃ m, a = .log m) {p : Operation} (hstep : o.step w.now r = (r, p, acts))
    (hended : p.isEnded = true) :
    (w.turn (.operation o) rest).muted =
      (dropIfFree
        { w.muted with
          actors := rest
          outcomes := (p.id, p.outcome) :: w.outcomes
          finished := p.id :: w.finished }
        o.run).muted := by
  have hlaunched : acts.flatMap (w.launched o.run r) = [] := by
    refine List.flatMap_eq_nil_iff.2 fun a ha => ?_
    obtain ⟨m, rfl⟩ := hacts a ha
    rfl
  have hmuted := muted_foldl_log hacts o.run w
  simp only [turn, hr, hstep, hended, if_true, hlaunched, List.append_nil, setRun_self hr]
  generalize acts.foldl (applyAct o.run) w = v at hmuted
  rw [muted_dropIfFree]
  have houtcomes : v.outcomes = w.outcomes := congrArg (·.outcomes) hmuted
  have hfinished : v.finished = w.finished := congrArg (·.finished) hmuted
  rw [← hmuted, ← houtcomes, ← hfinished]
  rfl

/-- When a pause is over and the signal is raised, it does not matter for which of them the
operation goes on: it ends, at once, and apart from what is logged the worlds are the same. -/
theorem turn_cutShort {rest : List (Actor σ)} (hr : w.run? o.run = some r)
    (hraised : r.isRaised = true) {left : Nat} {step wakeAt : Millis}
    (hagenda : o.agenda = [.resume c left step wakeAt]) (hhold : o.hold = .pause wakeAt)
    (hwake : wakeAt ≤ w.now) :
    ∃ p, (w.turn (.operation o) rest).firstReady? (w.turn (.operation o) rest).actors =
        some (.operation p, rest) ∧
      ((w.turn (.operation o) rest).turn (.operation p) rest).muted =
        (w.turn (.operation (o.cutShort w.now)) rest).muted := by
  have hover : o.hold.isOver w.now r = true := by simp [hhold, Hold.isOver, hwake]
  let p : Operation := { o with agenda := [.paced c left step], hold := .free }
  have hstep : o.step w.now r = (r, p, []) := by
    rw [Operation.step_of_goesOn hover hagenda rfl]
    simp [Errand.perform, hwake, p]
  have hturn : w.turn (.operation o) rest = { w with actors := .operation p :: rest } := by
    simp [turn, hr, hstep, setRun_self hr, Operation.isEnded, Operation.isReady, Hold.isOver, p]
  have hrun : run? { w with actors := .operation p :: rest } p.run = some r := hr
  -- The one looks at the signal once more, the other is over.
  have hagenda' : (o.cutShort w.now).agenda = [.resume c left step (w.now + 1)] := by
    simp [Operation.cutShort, hagenda]
  have hcut : (o.cutShort w.now).step w.now r =
      (r, { o.cutShort w.now with agenda := [], hold := .free }, []) := by
    have hover' : (o.cutShort w.now).hold.isOver w.now r = true := hover
    rw [Operation.step_of_goesOn hover' hagenda' rfl]
    simp [Errand.perform]
  have hp : p.hold.isOver w.now r = true := rfl
  obtain ⟨acts, hacts, hgoes⟩ : ∃ acts : List Act, (∀ a ∈ acts, ∃ m, a = .log m) ∧
      p.step w.now r = (r, { p with agenda := [], hold := .free }, acts) := by
    cases left with
    | zero => exact ⟨[], by simp, Operation.step_of_goesOn hp (e := .paced c 0 step) rfl rfl⟩
    | succ left =>
      refine ⟨[.log ⟨.debug, s!"Stop signal raised, abandoning {c.noun} over time"⟩], by simp, ?_⟩
      rw [Operation.step_of_goesOn hp (e := .paced c (left + 1) step) rfl
        (by simp [Errand.perform, hraised])]
      simp [Errand.perform, hraised, p]
  refine ⟨p, ?_, ?_⟩
  · rw [hturn]
    refine if_pos ?_
    rw [isReady, hrun, Option.any_some, Operation.isReady, hp, Bool.true_or]
  · have hr' : w.run? (o.cutShort w.now).run = some r := hr
    rw [hturn, muted_turn_ends hrun hacts hgoes rfl,
      muted_turn_ends hr' (fun a ha => absurd ha List.not_mem_nil) hcut rfl]
    rfl

/-! ### The law of ramps -/

/-- A change is spread over a span of time on a grid that begins with the call, whatever happens
meanwhile. -/
structure KeepsPace (u : World σ) (x : Ramp) (late : Bool) : Prop where
  /-- All single changes are made, one after another on the grid, unless the signal is raised. If it
  is raised before the call, there is nothing to note but the end, at once. -/
  logs : ∀ log v, Chronicle x.note u log v →
    if late then log = [] ∨ log = [.ends x.start] else x.Logs log
  outcome : ∀ log v, Chronicle x.note u log v →
    v.outcome? x.id = if log.any RampEvent.isEnd then some .done else none
  /-- Whenever nobody is ready and the operation has not ended, exactly those changes have been made
  that were due, and there is still a pause to come to its end. -/
  settled : ∀ log v, Chronicle x.note u log v → v.firstReady? v.actors = none →
    v.outcome? x.id = none → v.isRaised x.run = false ∧ v.now < x.finish ∧
      ∃ k ≤ x.amount, log = x.made k ∧ ∀ j < x.amount, x.due j ≤ v.now ↔ j < k
  returns : (∀ k t, u.template? k = some t → t.SleepsInCycles) → ∀ limit, x.finish ≤ limit →
    ∃ n, ∀ fuel, n ≤ fuel →
      (stepUntil (fun _ => false) limit fuel u).outcome? x.id = some .done
  /-- If a pause is over while the signal is raised, it makes no difference for which of the two the
  operation goes on. -/
  cutShort : ∀ log v, Chronicle x.note u log v →
    ∀ o rest left step wakeAt, .operation o ∈ v.actors →
    o.id = x.id → v.isRaised x.run = true → wakeAt ≤ v.now →
    o.agenda = [.resume x.change left step wakeAt] → o.hold = .pause wakeAt →
    ∃ p, (v.turn (.operation o) rest).firstReady? (v.turn (.operation o) rest).actors =
        some (.operation p, rest) ∧
      ((v.turn (.operation o) rest).turn (.operation p) rest).muted =
        (v.turn (.operation (o.cutShort v.now)) rest).muted

/-- To spread no change at all fails at once, and changes nothing. -/
structure FailsToSpread (u : World σ) (x : Ramp) : Prop where
  logs : ∀ log v, Chronicle x.note u log v → ∀ e ∈ log, e = .ends x.start ∨ ∃ t, e = .raised t
  outcome : ∀ log v, Chronicle x.note u log v → ∀ outcome, v.outcome? x.id = some outcome →
    outcome = .failed (.zeroAmount (.ofMillis x.span))
  settled : ∀ log v, Chronicle x.note u log v → v.firstReady? v.actors = none →
    v.outcome? x.id = some (.failed (.zeroAmount (.ofMillis x.span)))
  unchanged : ∀ log v, Chronicle x.note u log v → ∀ o, .operation o ∈ v.actors → o.id = x.id →
    ∀ now q, (o.step now q).1 = q ∧ (o.step now q).2.2 = []

lemma keepsPace_of_rampState {u : World σ} {late : Bool} (hu : u.Reachable)
    (h : RampState x u (if late then [.raised x.start] else [])) : u.KeepsPace x late := by
  have hstate : ∀ log v, Chronicle x.note u log v →
      RampState x v ((if late then [.raised x.start] else []) ++ log) := fun log v hv =>
    hv.preserves (fun _ _ _ _ hu h hnext => h.next hu hnext) hu h
  constructor
  case logs =>
    intro log v hv
    have hlogs := (hstate log v hv).logs
    cases late with
    | false => exact hlogs
    | true => exact hlogs.eq_of_raised
  case outcome =>
    intro log v hv
    rw [(hstate log v hv).outcome]
    cases late <;> rfl
  case settled =>
    intro log v hv hsettled hpending
    obtain hended | ⟨o, k, h, -, hk, hlog, hraised, hlt, hmade⟩ :=
      (hstate log v hv).of_settled (hu.lapses hv.lapses).staffed hsettled
    · rw [hended.outcome] at hpending
      cases hpending
    · cases late with
      | true =>
        -- Nothing passes while the signal is raised.
        cases k <;> simp [Ramp.made, List.range_succ_eq_map] at hlog
      | false =>
        refine ⟨hraised, Nat.lt_of_lt_of_le hlt (x.due_le hk), k, hk, hlog, fun j _ => ?_⟩
        refine ⟨?_, hmade j⟩
        intro hdue
        by_contra hge
        exact absurd (Nat.lt_of_lt_of_le hlt (x.due_le (Nat.not_lt.1 hge))) (Nat.not_lt.2 hdue)
  case returns =>
    intro hsleeps limit hlimit
    obtain ⟨log, v, n, hv, hnext, hn⟩ := hu.exists_chronicle hsleeps x.note limit
    refine ⟨n, fun fuel hfuel => ?_⟩
    rw [hn fuel hfuel]
    have hstaffed := (hu.lapses hv.lapses).staffed
    obtain ⟨hsettled, hdue⟩ := hstaffed.settled_of_next? hnext
    obtain hended | ⟨o, k, h, hhold, hk, -⟩ := (hstate log v hv).of_settled hstaffed hsettled
    · exact hended.outcome
    · obtain ⟨_, hunderWay⟩ := h.underWay
      have hlt : limit < x.due k :=
        hdue _ hunderWay.mem _ (by simp [deadline?, hhold, h.spreads.limit, Hold.deadline?])
      exact absurd (Nat.le_trans (x.due_le hk) hlimit) (Nat.not_le.2 hlt)
  case cutShort =>
    intro log v hv o rest left step wakeAt ho hid hraised hwake hagenda hhold
    obtain ⟨left', due', h⟩ := (hstate log v hv).ramps_of_mem ho hid
    obtain ⟨r, hr : v.run? o.run = some r⟩ := (hu.lapses hv.lapses).staffed.exists_run ho
    rw [isRaised_eq (h.run ▸ hr)] at hraised
    exact turn_cutShort hr hraised hagenda hhold hwake

lemma failsToSpread_of_refuses {u : World σ} (hu : u.Reachable) (h : Refuses x u []) :
    u.FailsToSpread x := by
  have hstate : ∀ log v, Chronicle x.note u log v → Refuses x v log := fun log v hv =>
    hv.preserves (fun _ _ _ _ hu h hnext => h.next hu hnext) hu h
  constructor
  case logs =>
    intro log v hv e he
    cases hstate log v hv with
    | asked _ _ _ _ _ _ hlog => exact .inr (hlog e he)
    | failed _ hlog => exact hlog e he
  case outcome =>
    intro log v hv outcome houtcome
    cases hstate log v hv with
    | asked h hid =>
      rw [← hid, h.pending] at houtcome
      cases houtcome
    | failed h =>
      rw [h.outcome] at houtcome
      exact (Option.some.inj houtcome).symm
  case settled =>
    intro log v hv hsettled
    cases hstate log v hv with
    | @asked o others h hid hrun hagenda hhold =>
      obtain ⟨r, hr : v.run? o.run = some r⟩ := (hu.lapses hv.lapses).staffed.exists_run h.mem
      have hover := isOver_of_settled hsettled h.mem hr
      rw [hhold] at hover
      cases hover
    | failed h => exact h.outcome
  case unchanged =>
    intro log v hv o ho hid now q
    cases hstate log v hv with
    | @asked p others h hid' hrun hagenda hhold =>
      obtain rfl : o = p := by
        obtain ho | ho := List.mem_cons.1 (h.actors.mem_iff.1 ho)
        · exact Actor.operation.inj ho
        · exact absurd (hid.trans hid'.symm) (h.alone o ho)
      rw [Refuses.step_of_spread now q hagenda hhold]
      exact ⟨rfl, rfl⟩
    | failed h => exact absurd hid (h.gone o ho)

end World

/-- All pauses together take no longer than the span that was asked for, and are shorter by less
than one millisecond for each change unless a pause is longer than anybody sleeps. -/
lemma Ramp.amount_mul_step (x : Ramp) (hpos : 0 < x.amount) :
    x.amount * x.step ≤ x.span ∧
      (x.span / x.amount ≤ longestSleep → x.span < x.amount * x.step + x.amount) := by
  constructor
  · calc
      x.amount * x.step ≤ x.amount * (x.span / x.amount) :=
        Nat.mul_le_mul_left _ (Nat.min_le_left ..)
      _ ≤ x.span := Nat.mul_div_le ..
  · intro hle
    rw [step, paceOf, Nat.min_eq_left hle]
    exact Nat.lt_mul_div_succ x.span hpos

/-- What a change of one user does to a run: a user is launched, or the oldest live user of a mode
is removed, if there is one. -/
def Change.on (r : Run) : Change → Run
  | .create _ => (r.launch 1).2
  | .remove mode =>
    { r with
      pool := (r.pool.take 1 mode).2.update .requestStop ((r.pool.take 1 mode).1.map Member.id)
      removed := r.removed + (r.pool.take 1 mode).1.length }

lemma Errand.eq_of_single? {e : Errand} {r : Run} {c : Change} (h : e.single? r = some c) :
    e = c.errand ∧ r.isRaised = false := by
  unfold Errand.single? at h
  split at h
  next lifecycle =>
    split_ifs at h with hraised
    cases h
    exact ⟨rfl, by simpa using hraised⟩
  next mode =>
    split_ifs at h with hraised
    cases h
    exact ⟨rfl, by simpa using hraised⟩
  next => cases h

lemma Operation.step_of_single? {o : Operation} {now : Millis} {r : Run} {c : Change}
    (h : o.single? now r = some c) : (o.step now r).1 = c.on r := by
  rw [single?] at h
  split_ifs at h with hover
  obtain ⟨e, he, hsingle⟩ := Option.bind_eq_some_iff.1 h
  obtain ⟨rest, hagenda⟩ : ∃ rest, o.agenda = e :: rest := by
    cases hagenda : o.agenda with
    | nil => simp [hagenda] at he
    | cons e' rest => exact ⟨rest, by simpa [hagenda] using he⟩
  obtain ⟨rfl, hraised⟩ := Errand.eq_of_single? hsingle
  cases c with
  | create lifecycle =>
    rw [step_of_goesOn hover hagenda (by simp [Change.errand, Errand.perform, hraised])]
    simp [Change.errand, Errand.perform, hraised, Change.on, Run.launch]
  | remove mode =>
    rw [step_of_goesOn hover hagenda (by simp [Change.errand, Errand.perform, hraised])]
    simp [Change.errand, Errand.perform, hraised, Change.on]

namespace World

/-- A change that is to be spread over a span of time is made one user at a time, each single change
with its pause, on a grid of instants that begins with the call: exactly those changes are made that
come before the signal is raised, and the operation ends without failure at the end of the last
pause, or at the instant of the raise. If the signal is raised before, nothing is done. A removal
that finds nobody takes its pause all the same. No change at all is an error, at once. -/
theorem Reachable.spread_in_time {w : World σ} (hw : w.Reachable) {i : Nat} {r : Run}
    (hr : w.run? i = some r) (hnew : w.outcome? w.nextOperation = none) (c : Change) (amount : Nat)
    (span : Millis) :
    let x := w.rampOf i c amount span
    let u := w.spread i c amount span
    (amount = 0 → u.FailsToSpread x) ∧
      (0 < amount → u.KeepsPace x r.isRaised ∧ amount * x.step ≤ span ∧
        (span / amount ≤ longestSleep → span < amount * x.step + amount)) ∧
      ∀ (o : Operation) now q, o.single? now q = some c → (o.step now q).1 = c.on q := by
  intro x u
  have hu : u.Reachable := .call hw (.submit none (by rw [hr]; rfl) (by simp [Errand.isCount]))
  refine ⟨?_, ?_, fun o now q h => Operation.step_of_single? h⟩
  · rintro rfl
    refine failsToSpread_of_refuses hu (.asked (underWay_submit hw hnew i _) rfl rfl rfl rfl rfl ?_)
    simp
  · intro hpos
    exact ⟨keepsPace_of_rampState hu (rampState_spread hw hr hnew c span hpos),
      x.amount_mul_step hpos⟩

/-- Three naps that begin one after another within three and a half seconds. -/
theorem naps_spread_in_time :
    let u := napsWatched.spread 0 (.create .regular) 3 3500
    u.KeepsPace (napsWatched.rampOf 0 (.create .regular) 3 3500) false ∧
      (∃ n, ∀ fuel, n ≤ fuel → (stepUntil (fun _ => false) 3498 fuel u).outcome? 0 = some .done) ∧
      (napsWatched.spread 0 (.remove .looped) 0 1000).FailsToSpread
        (napsWatched.rampOf 0 (.remove .looped) 0 1000) := by
  intro u
  have hw : napsWatched.Reachable :=
    .call (.call (.empty rfl rfl) (.cast Controller.nap)) (.openRun _ (by decide +kernel))
  obtain ⟨-, hspread, -⟩ := hw.spread_in_time (i := 0) rfl rfl (.create .regular) 3 3500
  obtain ⟨hfails, -⟩ := hw.spread_in_time (i := 0) rfl rfl (.remove .looped) 0 1000
  obtain ⟨hkeeps, -⟩ := hspread (by decide)
  refine ⟨hkeeps, ?_, hfails rfl⟩
  have hsleeps (k : Nat) (t : Template Unit) (h : napsWatched.template? k = some t) :
      t.SleepsInCycles := sleepsInCycles_of_nap (template_napsWatched h)
  exact hkeeps.returns hsleeps 3498 (by decide)

/-- A removal that is spread over thirty years and a second ends a second early. -/
theorem long_removal_ends_early :
    let w := (napBase.openRun 0 { runId := "1", watchInterval := 1000000000000000 }).2
    let v := stepUntil (fun v => (v.outcome? 0).isSome) 2000000000000 100
      (w.spread 0 (.remove .looped) 1 946080001000)
    v.outcome? 0 = some .done ∧ v.now ≠ 0 + 1 * (946080001000 / 1) := by
  decide +kernel

end World

end LoadTest
