import LoadTest.Proofs.Dealings

/-!
# Waiting until nobody is live

An operation that waits for everyone to finish goes on at the first instant at which, once everybody
has had their turn, nobody is live. It does not matter who drains. What can be seen of such a wait
is how many users are live when time passes, and when it returns.
-/

namespace LoadTest

variable {σ : Type}

/-- A wait until nobody is live in a run: the operation that waits, and what that is to do
afterwards. -/
structure Vigil where
  id : Nat
  run : Nat
  rest : List Errand := []

/-- What can be seen of a wait. -/
inductive VigilEvent where
  /-- Everybody has had their turn at an instant, and time passes while so many users are live. -/
  | passes (time : Millis) (live : Nat)
  | returns (time : Millis) (live : Nat)
  deriving DecidableEq, Repr

def VigilEvent.isReturn : VigilEvent → Bool
  | .returns _ _ => true
  | _ => false

/-- The logs of a wait: time only passes while someone is live, then the wait returns when nobody is
live, and nobody is live from then on. -/
inductive VigilLog : List VigilEvent → Prop
  | waits {log : List VigilEvent} (hlog : ∀ e ∈ log, ∃ s n, e = .passes s (n + 1)) : VigilLog log
  | returned {waits rests : List VigilEvent} {t : Millis}
      (hwaits : ∀ e ∈ waits, ∃ s n, s < t ∧ e = .passes s (n + 1))
      (hrests : ∀ e ∈ rests, ∃ s, t ≤ s ∧ e = .passes s 0) :
      VigilLog (waits ++ .returns t 0 :: rests)

namespace World

/-- The number of live users in the run at a place. -/
def liveCount (w : World σ) (i : Nat) : Nat := ((w.run? i).map fun r => r.pool.live.length).getD 0

/-- Has a wait not returned yet? -/
def isOpen (w : World σ) (x : Vigil) : Bool :=
  w.actors.any fun
    | .operation o => o.id == x.id && decide (agendaSize x.rest ≤ agendaSize o.agenda)
    | _ => false

end World

/-- What is to be seen of a wait by what happens next. -/
def Vigil.note (x : Vigil) (u : World σ) (_ : Option (Actor σ)) (v : World σ) : List VigilEvent :=
  (if u.now < v.now then [.passes u.now (u.liveCount x.run)] else []) ++
    if u.isOpen x && !v.isOpen x then [.returns v.now (u.liveCount x.run)] else []

/-- The operation is the one that waits. -/
structure Operation.Keeps (o : Operation) (x : Vigil) : Prop where
  id : o.id = x.id
  run : o.run = x.run
  limit : o.limit = none
  outcome : o.outcome = .done

namespace World

variable {w v : World σ} {x : Vigil} {o : Operation} {others : List (Actor σ)}
  {log : List VigilEvent}

lemma liveCount_eq {i : Nat} {r : Run} (hr : w.run? i = some r) :
    w.liveCount i = r.pool.live.length := by
  rw [liveCount, hr]
  rfl

lemma isOpen_eq_false : w.isOpen x = false ↔
    ∀ p, .operation p ∈ w.actors → p.id = x.id → agendaSize p.agenda < agendaSize x.rest := by
  rw [isOpen, List.any_eq_false]
  constructor
  · intro h p hp hid
    simpa [hid] using h _ hp
  · intro h a ha
    cases a with
    | operation p => simpa using h p ha
    | _ => simp

lemma isOpen_of_mem (ho : .operation o ∈ w.actors) (hid : o.id = x.id)
    (hsize : agendaSize x.rest ≤ agendaSize o.agenda) : w.isOpen x = true := by
  by_contra hnot
  exact absurd (isOpen_eq_false.1 (by simpa using hnot) o ho hid) (Nat.not_lt.2 hsize)

/-- A wait that has returned stays so. -/
lemma isOpen_lapse (hw : w.Staffed) (hissued : x.id < w.nextOperation) (h : w.isOpen x = false)
    (hlapse : Lapse w v) : v.isOpen x = false ∧ x.id < v.nextOperation := by
  rw [isOpen_eq_false] at h ⊢
  cases hlapse with
  | acts hacts =>
    cases hacts with
    | @turn a others hfirst =>
      refine ⟨fun p hp hid => ?_, by rwa [nextOperation_turn]⟩
      have ha := mem_of_firstReady? hfirst
      obtain ⟨new, hactors, hnew⟩ := (hw.lineup ha others).perm
      obtain hp | hp := List.mem_append.1 (hactors.mem_iff.1 hp)
      · cases hnew _ hp with
        | inl hsucceeds =>
          cases hsucceeds with
          | @operation q r hr hgoes =>
            rw [(q.later_step w.now r).2.1] at hid
            exact (Operation.agendaSize_step_lt hgoes).trans (h q ha hid)
        | inr hlaunches => cases hlaunches
      · exact h p ((perm_of_firstReady? hfirst).mem_iff.2 (List.mem_cons_of_mem _ hp)) hid
  | idle => exact ⟨h, hissued⟩
  | call _ hcall =>
    refine ⟨fun p hp hid => ?_, Nat.lt_of_lt_of_le hissued hcall.operations.2.1⟩
    obtain ⟨new, hactors, hnew⟩ := hcall.perm
    obtain hp | hp := List.mem_append.1 (hactors.mem_iff.1 hp)
    · exact absurd ((hnew p hp).1.symm.trans hid) (Nat.ne_of_gt hissued)
    · exact h p hp hid

/-! ### Steps -/

/-- Where a wait stands, and what has been seen of it. -/
inductive VigilState (x : Vigil) (w : World σ) : List VigilEvent → Prop
  | asked {o : Operation} {others : List (Actor σ)} (h : w.UnderWay o others) (ho : o.Keeps x)
      (hagenda : o.agenda = .waitForAll :: x.rest) (hhold : o.hold = .free) : VigilState x w []
  | waits {o : Operation} {others : List (Actor σ)} {log : List VigilEvent}
      (h : w.UnderWay o others) (ho : o.Keeps x) (hagenda : o.agenda = x.rest)
      (hhold : o.hold = .empty) (hlog : ∀ e ∈ log, ∃ s n, s < w.now ∧ e = .passes s (n + 1)) :
      VigilState x w log
  | returned {waits rests : List VigilEvent} {t : Millis} (hopen : w.isOpen x = false)
      (hissued : x.id < w.nextOperation) (hdone : x.rest = [] → w.HasEnded x.id .done)
      (hlive : w.liveCount x.run = 0) (ht : t ≤ w.now)
      (hwaits : ∀ e ∈ waits, ∃ s n, s < t ∧ e = .passes s (n + 1))
      (hrests : ∀ e ∈ rests, ∃ s, t ≤ s ∧ e = .passes s 0) :
      VigilState x w (waits ++ .returns t 0 :: rests)

section Noting

variable {a : Option (Actor σ)}

lemma note_of_isOpen (hnow : v.now = w.now) (hopen : v.isOpen x = true) : x.note w a v = [] := by
  simp [Vigil.note, hnow, hopen]

lemma note_of_return (hnow : v.now = w.now) (hw : w.isOpen x = true) (hv : v.isOpen x = false) :
    x.note w a v = [.returns v.now (w.liveCount x.run)] := by
  simp [Vigil.note, hnow, hw, hv]

lemma note_of_returned (hw : w.isOpen x = false) :
    x.note w a v = if w.now < v.now then [.passes w.now (w.liveCount x.run)] else [] := by
  simp [Vigil.note, hw]

end Noting

lemma UnderWay.isOpen (h : w.UnderWay o others) (ho : o.Keeps x)
    (hsize : agendaSize x.rest ≤ agendaSize o.agenda) : w.isOpen x = true :=
  isOpen_of_mem h.mem ho.id hsize

/-- The wait returns by the turn that comes once nobody is live. -/
lemma UnderWay.isOpen_turn (h : w.UnderWay o others) (ho : o.Keeps x) (hagenda : o.agenda = x.rest)
    {rest : List (Actor σ)} (hrest : rest.Perm others) {r : Run} (hr : w.run? o.run = some r) :
    (w.turn (.operation o) rest).isOpen x = false := by
  rw [isOpen_eq_false]
  intro p hp hid
  cases hended : (o.step w.now r).2.1.isEnded with
  | true => exact absurd (hid.trans ho.id.symm) ((h.turn_ends hr hrest hended).1.gone p hp)
  | false =>
    obtain ⟨⟨others', hv⟩, -⟩ := h.turn_goesOn hr hrest hended
    obtain hp | hp := List.mem_cons.1 (hv.actors.mem_iff.1 hp)
    · rw [Actor.operation.inj hp, ← hagenda]
      exact Operation.agendaSize_step_lt hended
    · refine absurd (hid.trans ho.id.symm) ?_
      rw [← (o.later_step w.now r).2.1]
      exact hv.alone p hp

/-- If there is nothing else to do, the operation has ended then. -/
lemma UnderWay.hasEnded_turn (h : w.UnderWay o others) (ho : o.Keeps x) (hagenda : o.agenda = [])
    {rest : List (Actor σ)} (hrest : rest.Perm others) {r : Run} (hr : w.run? o.run = some r)
    (hover : o.hold.isOver w.now r = true) :
    (w.turn (.operation o) rest).HasEnded x.id .done := by
  have hstep : o.step w.now r = (r, { o with hold := .free }, []) := by
    simp [Operation.step, hover, hagenda]
  obtain ⟨hv, -⟩ := h.turn_ends hr hrest (by simp [hstep, Operation.isEnded, hagenda])
  rw [hstep, ho.id] at hv
  exact ho.outcome ▸ hv

/-- The operation begins to wait. -/
lemma UnderWay.waits_turn (h : w.UnderWay o others) (ho : o.Keeps x)
    (hagenda : o.agenda = .waitForAll :: x.rest) (hhold : o.hold = .free)
    {rest : List (Actor σ)} (hrest : rest.Perm others) {r : Run} (hr : w.run? o.run = some r) :
    ∃ o' others', (w.turn (.operation o) rest).UnderWay o' others' ∧ o'.Keeps x ∧
      o'.agenda = x.rest ∧ o'.hold = .empty := by
  have hstep : (o.step w.now r).2.1 = { o with agenda := x.rest, hold := .empty } := by
    rw [Operation.step_of_goesOn (by rw [hhold]; rfl) hagenda rfl]
    rfl
  obtain ⟨⟨others', hv⟩, -⟩ := h.turn_goesOn hr hrest (by simp [hstep, Operation.isEnded])
  rw [hstep] at hv
  exact ⟨_, _, hv, ⟨ho.id, ho.run, ho.limit, ho.outcome⟩, rfl, rfl⟩

/-- An operation that waits is ready exactly if nobody is live. -/
lemma isReady_of_empty (ho : o.Keeps x) (hhold : o.hold = .empty) {r : Run}
    (hr : w.run? x.run = some r) (hsane : r.Sane) :
    w.isReady (.operation o) = true ↔ w.liveCount x.run = 0 := by
  rw [isReady, ho.run, hr, Option.any_some, Operation.isReady, Operation.isLate, ho.limit, hhold,
    liveCount_eq hr]
  simp [Hold.isOver, hsane.count]

namespace VigilState

variable {r q : Run} {a : Option (Actor σ)}

/-- What happens next to a wait that has returned. -/
lemma next_of_returned {waits rests : List VigilEvent} {t : Millis} (hopen : w.isOpen x = false)
    (hissued : x.id < w.nextOperation) (hdone : x.rest = [] → w.HasEnded x.id .done)
    (hlive : w.liveCount x.run = 0) (ht : t ≤ w.now)
    (hwaits : ∀ e ∈ waits, ∃ s n, s < t ∧ e = .passes s (n + 1))
    (hrests : ∀ e ∈ rests, ∃ s, t ≤ s ∧ e = .passes s 0) (hw : w.Reachable) (hnext : Happens w a v)
    (hlive' : v.liveCount x.run = 0) :
    VigilState x v (waits ++ .returns t 0 :: rests ++ x.note w a v) := by
  obtain ⟨hopen', hissued'⟩ := isOpen_lapse hw.staffed hissued hopen hnext.lapse
  rw [List.append_assoc, List.cons_append]
  refine .returned hopen' hissued' (fun h => (hdone h).lapse hw.staffed hnext.lapse) hlive'
    (ht.trans hnext.now_le) hwaits fun e he => ?_
  obtain he | he := List.mem_append.1 he
  · exact hrests e he
  · rw [note_of_returned hopen, hlive] at he
    split_ifs at he
    · exact ⟨w.now, ht, List.mem_singleton.1 he⟩
    · cases he

/-- An operation that is to wait begins to, whether anyone is live or not. -/
lemma next_of_asked (h : w.UnderWay o others) (ho : o.Keeps x)
    (hagenda : o.agenda = .waitForAll :: x.rest) (hhold : o.hold = .free) (hw : w.Reachable)
    (hnext : Happens w a v) (hr : w.run? x.run = some r) : VigilState x v (x.note w a v) := by
  have hsize : agendaSize x.rest ≤ agendaSize o.agenda := by
    rw [hagenda]
    exact Nat.le_add_left ..
  cases h.next hw.staffed hnext with
  | own hrest hready hv =>
    obtain ⟨o', others', hv', ho', hagenda', hhold'⟩ :=
      h.waits_turn ho hagenda hhold hrest (ho.run ▸ hr)
    rw [← hv] at hv'
    rw [note_of_isOpen (hv ▸ now_of_turn) (hv'.isOpen ho' (by rw [hagenda']))]
    exact .waits hv' ho' hagenda' hhold' (by simp)
  | other hid hv hnow =>
    rw [note_of_isOpen hnow (hv.isOpen ho hsize)]
    exact .asked hv ho hagenda hhold
  | idle hsettled hnow hdue hv =>
    have hover := isOver_of_settled hsettled h.mem (ho.run ▸ hr)
    rw [hhold] at hover
    cases hover

/-- A wait goes on as long as someone is live. -/
lemma next_of_waits (h : w.UnderWay o others) (ho : o.Keeps x) (hagenda : o.agenda = x.rest)
    (hhold : o.hold = .empty) (hlog : ∀ e ∈ log, ∃ s n, s < w.now ∧ e = .passes s (n + 1))
    (hw : w.Reachable) (hnext : Happens w a v) (hr : w.run? x.run = some r)
    (hempty : w.liveCount x.run = 0 → v.liveCount x.run = 0) :
    VigilState x v (log ++ x.note w a v) := by
  have hsize : agendaSize x.rest ≤ agendaSize o.agenda := by rw [hagenda]
  have hlive := isReady_of_empty ho hhold hr (hw.sane hr)
  cases h.next hw.staffed hnext with
  | own hrest hready hv =>
    have hnobody := hlive.1 hready
    have hover : o.hold.isOver w.now r = true := by
      simpa [isReady, ho.run, hr, Operation.isReady, Operation.isLate, ho.limit] using hready
    have hopen : v.isOpen x = false := hv ▸ h.isOpen_turn ho hagenda hrest (ho.run ▸ hr)
    have hnow : v.now = w.now := hv ▸ now_of_turn
    rw [note_of_return hnow (h.isOpen ho hsize) hopen, hnobody]
    refine .returned hopen ?_ (fun hrest' => ?_) (hempty hnobody) (Nat.le_refl _)
      (hnow.symm ▸ hlog) (by simp)
    · rw [hv, nextOperation_turn, ← ho.id]
      exact h.issued
    · rw [hv]
      exact h.hasEnded_turn ho (hagenda.trans hrest') hrest (ho.run ▸ hr) hover
  | other hid hv hnow =>
    rw [note_of_isOpen hnow (hv.isOpen ho hsize), List.append_nil]
    exact .waits hv ho hagenda hhold (hnow.symm ▸ hlog)
  | @idle now hsettled hnow hdue hv =>
    subst hv
    have hsomeone : w.liveCount x.run ≠ 0 := fun hzero => by
      have hready := hlive.2 hzero
      rw [not_isReady_of_settled hsettled _ h.mem] at hready
      cases hready
    obtain ⟨n, hn⟩ := Nat.exists_eq_succ_of_ne_zero hsomeone
    refine .waits (h.idle now) ho hagenda hhold fun e he => ?_
    obtain he | he := List.mem_append.1 he
    · obtain ⟨s, m, hs, rfl⟩ := hlog e he
      exact ⟨s, m, Nat.lt_of_lt_of_le hs hnow, rfl⟩
    · have hopen := (h.idle now).isOpen ho hsize
      simp only [Vigil.note, hopen, Bool.not_true, Bool.and_false, if_false, List.append_nil,
        Bool.false_eq_true] at he
      split_ifs at he with hlt
      · exact ⟨w.now, n, hlt, by rw [List.mem_singleton.1 he, hn]⟩
      · cases he

/-- Whatever happens next, a wait returns once nobody is live. -/
theorem next (h : VigilState x w log) (hw : w.Reachable) (hnext : Happens w a v)
    (hr : w.run? x.run = some r) (harriving : r.arriving = []) (hq : v.run? x.run = some q)
    (hlaunched : q.launched = r.launched) : VigilState x v (log ++ x.note w a v) := by
  have hempty (hlive : w.liveCount x.run = 0) : v.liveCount x.run = 0 := by
    obtain ⟨q', hq', hdealings⟩ := hw.dealings_happens hnext hr
    cases hq'.symm.trans hq
    have hsubset := (hdealings.closed hlaunched harriving).2
    rw [liveCount_eq hr] at hlive
    rw [liveCount_eq hq]
    simpa [Pool.liveIds, List.eq_nil_of_length_eq_zero hlive] using hsubset
  cases h with
  | asked h ho hagenda hhold => exact next_of_asked h ho hagenda hhold hw hnext hr
  | waits h ho hagenda hhold hlog =>
    exact next_of_waits h ho hagenda hhold hlog hw hnext hr hempty
  | returned hopen hissued hdone hlive ht hwaits hrests =>
    exact next_of_returned hopen hissued hdone hlive ht hwaits hrests hw hnext (hempty hlive)

lemma issued (h : VigilState x w log) : x.id < w.nextOperation := by
  cases h with
  | asked h ho => exact ho.id ▸ h.issued
  | waits h ho => exact ho.id ▸ h.issued
  | returned hopen hissued => exact hissued

/-- A wait returns by a turn of its operation, at an instant at which nobody is live. -/
lemma liveCount_of_return (h : VigilState x w log) (hw : w.Reachable) (hnext : Happens w a v)
    (hr : w.run? x.run = some r) (hwopen : w.isOpen x = true) (hv : v.isOpen x = false) :
    w.liveCount x.run = 0 ∧ v.now = w.now := by
  have hstays {o : Operation} {others : List (Actor σ)} (hopen : v.UnderWay o others)
      (ho : o.Keeps x) (hsize : agendaSize x.rest ≤ agendaSize o.agenda) :
      w.liveCount x.run = 0 ∧ v.now = w.now := by
    rw [hopen.isOpen ho hsize] at hv
    cases hv
  cases h with
  | @asked o others h ho hagenda hhold =>
    have hsize : agendaSize x.rest ≤ agendaSize o.agenda := by
      rw [hagenda]
      exact Nat.le_add_left ..
    cases h.next hw.staffed hnext with
    | own hrest hready hv' =>
      obtain ⟨o', others', hopen, ho', hagenda', -⟩ :=
        h.waits_turn ho hagenda hhold hrest (ho.run ▸ hr)
      exact hstays (hv' ▸ hopen) ho' (by rw [hagenda'])
    | other hid hopen hnow => exact hstays hopen ho hsize
    | @idle now hsettled hnow hdue hv' => exact hstays (hv' ▸ h.idle now) ho hsize
  | @waits o others log h ho hagenda hhold hlog =>
    have hsize : agendaSize x.rest ≤ agendaSize o.agenda := by rw [hagenda]
    cases h.next hw.staffed hnext with
    | own hrest hready hv' =>
      exact ⟨(isReady_of_empty ho hhold hr (hw.sane hr)).1 hready, hv' ▸ now_of_turn⟩
    | other hid hopen hnow => exact hstays hopen ho hsize
    | @idle now hsettled hnow hdue hv' => exact hstays (hv' ▸ h.idle now) ho hsize
  | returned hopen =>
    rw [hopen] at hwopen
    cases hwopen

lemma vigilLog (h : VigilState x w log) : VigilLog log := by
  cases h with
  | asked => exact .waits (by simp)
  | waits h ho hagenda hhold hlog =>
    refine .waits fun e he => ?_
    obtain ⟨s, n, -, rfl⟩ := hlog e he
    exact ⟨s, n, rfl⟩
  | returned hopen hissued hdone hlive ht hwaits hrests => exact .returned hwaits hrests

/-- Nothing but the return itself is seen as one. -/
lemma not_isReturn {waits : List VigilEvent} (h : ∀ e ∈ waits, ∃ s n, e = .passes s n) :
    waits.any VigilEvent.isReturn = false := by
  refine List.any_eq_false.2 fun e he => ?_
  obtain ⟨s, n, rfl⟩ := h e he
  simp [VigilEvent.isReturn]

/-- A wait is open, and the operation has not ended, until the return has been seen. -/
lemma isOpen_eq (h : VigilState x w log) :
    w.isOpen x = !log.any VigilEvent.isReturn ∧
      (x.rest = [] →
        w.outcome? x.id = if log.any VigilEvent.isReturn then some .done else none) := by
  cases h with
  | asked h ho hagenda hhold =>
    refine ⟨h.isOpen ho ?_, fun _ => ho.id ▸ h.pending⟩
    rw [hagenda]
    exact Nat.le_add_left ..
  | waits h ho hagenda hhold hlog =>
    have hnot : log.any VigilEvent.isReturn = false := not_isReturn fun e he => by
      obtain ⟨s, n, -, rfl⟩ := hlog e he
      exact ⟨s, n + 1, rfl⟩
    rw [hnot]
    exact ⟨h.isOpen ho (by rw [hagenda]), fun _ => ho.id ▸ h.pending⟩
  | returned hopen hissued hdone hlive ht hwaits hrests =>
    simp only [List.any_append, List.any_cons, VigilEvent.isReturn, Bool.true_or, Bool.or_true,
      Bool.not_true, if_true]
    exact ⟨hopen, fun hrest => (hdone hrest).outcome⟩

/-- Whenever nobody is ready, the wait has returned exactly if nobody is live. -/
lemma isOpen_of_settled (h : VigilState x w log) (hw : w.Reachable) (hr : w.run? x.run = some r)
    (hsettled : w.firstReady? w.actors = none) : w.isOpen x = false ↔ r.pool.live = [] := by
  rw [← List.length_eq_zero_iff, ← liveCount_eq hr]
  cases h with
  | asked h ho hagenda hhold =>
    have hover := isOver_of_settled hsettled h.mem (ho.run ▸ hr)
    rw [hhold] at hover
    cases hover
  | waits h ho hagenda hhold hlog =>
    have hready := not_isReady_of_settled hsettled _ h.mem
    rw [h.isOpen ho (by rw [hagenda])]
    rw [← isReady_of_empty ho hhold hr (hw.sane hr), hready]
    simp
  | returned hopen hissued hdone hlive ht hwaits hrests => simp [hopen, hlive]

end VigilState

/-! ### The law of waits -/

/-- From now on a wait returns once nobody is live, as long as no user is launched but those that
have been launched by now. -/
structure WaitsForAll (u : World σ) (x : Vigil) (launched : Nat) : Prop where
  /-- Time only passes while someone is live, and from the return on while nobody is. -/
  logs : ∀ log v q, Chronicle x.note u log v → v.run? x.run = some q → q.launched = launched →
    VigilLog log
  isOpen : ∀ log v q, Chronicle x.note u log v → v.run? x.run = some q → q.launched = launched →
    v.isOpen x = !log.any VigilEvent.isReturn
  /-- Whenever everybody has had their turn, the wait has returned exactly if nobody is live. -/
  settled : ∀ log v q, Chronicle x.note u log v → v.run? x.run = some q → q.launched = launched →
    v.firstReady? v.actors = none → (v.isOpen x = false ↔ q.pool.live = [])
  /-- If there is nothing else to do, the return is the end of the operation. -/
  outcome : ∀ log v q, Chronicle x.note u log v → v.run? x.run = some q → q.launched = launched →
    x.rest = [] → v.outcome? x.id = if log.any VigilEvent.isReturn then some .done else none

/-- As long as nobody is launched, a wait goes on in order. -/
lemma VigilState.chronicle {u : World σ} {r q : Run} {before : List VigilEvent} (hu : u.Reachable)
    (h : VigilState x u before) (hr : u.run? x.run = some r) (harriving : r.arriving = [])
    (hv : Chronicle x.note u log v) (hq : v.run? x.run = some q)
    (hlaunched : q.launched = r.launched) :
    q.arriving = [] ∧ VigilState x v (before ++ log) := by
  induction hv generalizing q with
  | refl =>
    cases hr.symm.trans hq
    exact ⟨harriving, by simpa using h⟩
  | @tail u' v a log hu' hlast ih =>
    obtain ⟨p, hp, hbefore⟩ := hu.dealings_lapses hu'.lapses hr
    obtain ⟨q', hq', hdealings⟩ := (hu.lapses hu'.lapses).dealings_happens hlast hp
    cases hq'.symm.trans hq
    have hsame : p.launched = r.launched :=
      Nat.le_antisymm (hdealings.grown.launched.trans_eq hlaunched) hbefore.grown.launched
    obtain ⟨harriving', hstate⟩ := ih hp hsame
    have hlaunched' : q.launched = p.launched := hlaunched.trans hsame.symm
    rw [← List.append_assoc]
    exact ⟨(hdealings.closed hlaunched' harriving').1,
      hstate.next (hu.lapses hu'.lapses) hlast hp harriving' hq hlaunched'⟩

lemma waitsForAll_of_state {u : World σ} {r : Run} (hu : u.Reachable) (h : VigilState x u [])
    (hr : u.run? x.run = some r) (harriving : r.arriving = []) :
    u.WaitsForAll x r.launched where
  logs _ _ _ hv hq hlaunched := (h.chronicle hu hr harriving hv hq hlaunched).2.vigilLog
  isOpen _ _ _ hv hq hlaunched := (h.chronicle hu hr harriving hv hq hlaunched).2.isOpen_eq.1
  settled _ _ _ hv hq hlaunched :=
    (h.chronicle hu hr harriving hv hq hlaunched).2.isOpen_of_settled (hu.lapses hv.lapses) hq
  outcome _ _ _ hv hq hlaunched := (h.chronicle hu hr harriving hv hq hlaunched).2.isOpen_eq.2

end World

end LoadTest
