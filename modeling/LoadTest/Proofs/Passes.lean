import LoadTest.Behavior.Script
import LoadTest.Proofs.Ending
import LoadTest.World.Session

/-!
# Passes through a cycle

A pass goes from before the task to after it: the callbacks are called one after the other, each in
the state that the one before has left, until one fails whose failure is fatal, and the pause comes
last. `Behavior.pass` says by rules what a pass can show and what it can come to. Both those who go
through cycles follow it: a virtual user, step by step, and a session, all at once.
-/

namespace LoadTest

variable {σ : Type}

/-! ### What callbacks come to -/

/-- The end that a routine can come to, whatever it finds on its way. -/
inductive Routine.Ends : Routine σ → (state : σ) → (failure : Option String) → Prop
  | finish {s : σ} {f : Option String} : Ends (.finish s f) s f
  | sleep {d : Millis} {next : Routine σ} {s : σ} {f : Option String} (h : next.Ends s f) :
      Ends (.sleep d next) s f
  | record {label : String} {next : Routine σ} {s : σ} {f : Option String} (h : next.Ends s f) :
      Ends (.record label next) s f
  | look {next : Option RunView → Routine σ} {s : σ} {f : Option String} (seen : Option RunView)
      (h : (next seen).Ends s f) : Ends (.look next) s f
  | raise {next : Option Bool → Routine σ} {s : σ} {f : Option String} (answer : Option Bool)
      (h : (next answer).Ends s f) : Ends (.raise next) s f
  | transact {labels : Labels} {body : Routine σ} {next : σ → Option String → Routine σ}
      {s s' : σ} {f f' : Option String} (hbody : body.Ends s f) (hnext : (next s f).Ends s' f') :
      Ends (.transact labels body next) s' f'

/-- The end that a routine can come to with the transactions that it is within. -/
def Routine.EndsWithin (r : Routine σ) : List (OpenTransaction σ) → σ → Option String → Prop
  | [], s, f => r.Ends s f
  | t :: ts, s, f => ∃ s' f', r.Ends s' f' ∧ (t.next s' f').EndsWithin ts s f

/-- The end that a routine in progress can come to. -/
def Activation.Ends (a : Activation σ) (s : σ) (f : Option String) : Prop :=
  a.routine.EndsWithin a.opened s f

lemma Routine.EndsWithin.imp {r r' : Routine σ} {opened : List (OpenTransaction σ)} {s : σ}
    {f : Option String} (h : r.EndsWithin opened s f)
    (himp : ∀ s f, r.Ends s f → r'.Ends s f) : r'.EndsWithin opened s f := by
  cases opened with
  | nil => exact himp s f h
  | cons t ts =>
    obtain ⟨s', f', hends, hrest⟩ := h
    exact ⟨s', f', himp s' f' hends, hrest⟩

/-- An action leads to no end that could not be come to before. -/
lemma Activation.ends_of_going {a a' : Activation σ} {now : Millis} {run : Option RunView} {s : σ}
    {f : Option String} (hstep : (a.step now run).1 = .going a') (h : a'.Ends s f) :
    a.Ends s f := by
  obtain ⟨r, opened, wakeAt⟩ := a
  cases wakeAt with
  | some t =>
    cases hstep
    exact h
  | none =>
    cases r with
    | finish s' f' =>
      cases opened with
      | nil => cases hstep
      | cons t ts =>
        cases hstep
        exact ⟨s', f', .finish, h⟩
    | panic reason => cases hstep
    | sleep d next =>
      have hnext : next.EndsWithin opened s f := by
        cases d with
        | zero =>
          cases hstep
          exact h
        | succ d =>
          cases hstep
          exact h
      exact hnext.imp fun _ _ => .sleep
    | record label next =>
      cases hstep
      exact Routine.EndsWithin.imp h fun _ _ => .record
    | look next =>
      cases hstep
      exact Routine.EndsWithin.imp h fun _ _ => .look _
    | raise next =>
      cases run with
      | none =>
        cases hstep
        exact Routine.EndsWithin.imp h fun _ _ => .raise _
      | some v =>
        cases hstep
        exact Routine.EndsWithin.imp h fun _ _ => .raise _
    | transact labels body next =>
      cases hstep
      obtain ⟨s', f', hbody, hrest⟩ := h
      exact hrest.imp fun _ _ => .transact hbody

lemma Activation.ends_of_returned {a : Activation σ} {now : Millis} {run : Option RunView} {s : σ}
    {f : Option String} (hstep : (a.step now run).1 = .returned s f) : a.Ends s f := by
  obtain ⟨r, opened, wakeAt⟩ := a
  cases wakeAt with
  | some t => cases hstep
  | none =>
    cases r with
    | finish s' f' =>
      cases opened with
      | nil =>
        cases hstep
        exact .finish
      | cons t ts => cases hstep
    | sleep d next => cases d <;> cases hstep
    | raise next => cases run <;> cases hstep
    | _ => cases hstep

lemma Routine.ends_of_play {name : String} {number : Nat} {r : Routine σ} {b b' : Bench} {s : σ}
    {f : Option String} (hplay : r.play name number b = (some (s, f), b')) : r.Ends s f := by
  induction r generalizing b b' s f with
  | finish s' f' =>
    cases hplay
    exact .finish
  | panic reason => cases hplay
  | sleep d next ih => exact .sleep (ih hplay)
  | record label next ih => exact .record (ih hplay)
  | look next ih => exact .look none (ih none hplay)
  | raise next ih => exact .raise none (ih none hplay)
  | transact labels body next ihbody ih =>
    rw [play] at hplay
    split at hplay
    · cases hplay
    · next hbody => exact .transact (ihbody hbody) (ih _ _ hplay)

/-! ### Passes -/

/-- What a pass through a cycle shows. -/
inductive PassEvent (σ : Type) where
  | calls (r : Routine σ)
  | returns (state : σ) (failure : Option String)
  | logs (m : Message)
  | sleeps (since wakeAt : Millis)

/-- How far something has come: it goes on, in a callback or in the pause, or it is over. -/
inductive Progress (σ : Type) where
  | underWay
  | over (state : σ) (failure : Option String)

/-- What may show, and how far that comes. -/
abbrev Passage (σ : Type) := List (PassEvent σ) → Progress σ → Prop

/-- One passage and then another, in the state that the first one leaves. A failure cuts the second
one off. -/
inductive FollowedBy (p : Passage σ) (q : σ → Passage σ) : Passage σ
  | stays {events : List (PassEvent σ)} (h : p events .underWay) : FollowedBy p q events .underWay
  | fails {events : List (PassEvent σ)} {s : σ} {reason : String}
      (h : p events (.over s (some reason))) : FollowedBy p q events (.over s (some reason))
  | goesOn {events rest : List (PassEvent σ)} {s : σ} {progress : Progress σ}
      (h : p events (.over s none)) (hrest : q s rest progress) :
      FollowedBy p q (events ++ rest) progress

/-- Nothing is called. -/
inductive NoCalls (s : σ) : Passage σ
  | done : NoCalls s [] (.over s none)

/-- How a callback returns that can come to certain ends. A failure that is not fatal is logged, and
that is all. -/
inductive Answered (ends : σ → Option String → Prop) : OnFailure → Passage σ
  | awaited {onFailure : OnFailure} : Answered ends onFailure [] .underWay
  | succeeds {onFailure : OnFailure} {s : σ} (h : ends s none) :
      Answered ends onFailure [.returns s none] (.over s none)
  | fatal {s : σ} {reason : String} (h : ends s (some reason)) :
      Answered ends .fatal [.returns s (some reason)] (.over s (some reason))
  | logged {s : σ} {what reason : String} (h : ends s (some reason)) :
      Answered ends (.logged what)
        [.returns s (some reason), .logs ⟨.error, s!"{what}: {reason}"⟩] (.over s none)

/-- A callback is called in a state, and returns. -/
inductive Called (onFailure : OnFailure) (run : σ → Routine σ) (s : σ) : Passage σ
  | calls {events : List (PassEvent σ)} {progress : Progress σ}
      (h : Answered (run s).Ends onFailure events progress) :
      Called onFailure run s (.calls (run s) :: events) progress

/-- A pause, unless it is to take no time. -/
inductive Pausing (pause : Millis) (s : σ) : Passage σ
  | none (h : pause = 0) : Pausing pause s [] (.over s none)
  | asleep (h : pause ≠ 0) (since : Millis) :
      Pausing pause s [.sleeps since (wakeTime since pause)] .underWay
  | rested (h : pause ≠ 0) (since : Millis) :
      Pausing pause s [.sleeps since (wakeTime since pause)] (.over s none)

/-- The hooks of one side of a task, in the order of their registration. The hooks of other tasks
are passed over. -/
def hookPass (side task : String) : List (Hook σ) → σ → Passage σ
  | [], s => NoCalls s
  | h :: hooks, s =>
    if h.scope = none ∨ h.scope = some task then
      FollowedBy (Called (.logged s!"{side}-task hook for {task} failed") h.run s)
        (hookPass side task hooks)
    else hookPass side task hooks s

/-- A pass around a task. What fails of the callbacks before, of and after the task is the result,
and what would have followed is left out. -/
def Behavior.pass (b : Behavior σ) (t : Task σ) (s : σ) : Passage σ :=
  FollowedBy (Called .fatal b.beforeTask s) fun s =>
  FollowedBy (hookPass "Before" t.name b.taskSet.before s) fun s =>
  FollowedBy (Called .fatal t.run s) fun s =>
  FollowedBy (hookPass "After" t.name b.taskSet.after s) fun s =>
  FollowedBy (Called .fatal b.afterTask s) fun s =>
  Pausing t.delayAfter s

/-- Hooks never cut a pass off, whether they fail or not. -/
theorem hookPass_succeeds {side task : String} {hooks : List (Hook σ)} {s s' : σ}
    {events : List (PassEvent σ)} {failure : Option String}
    (h : hookPass side task hooks s events (.over s' failure)) : failure = none := by
  induction hooks generalizing s events with
  | nil =>
    cases h
    rfl
  | cons hook hooks ih =>
    rw [hookPass] at h
    split_ifs at h
    · cases h with
      | fails hcalled =>
        obtain ⟨hanswer⟩ := hcalled
        cases hanswer
      | goesOn _ hrest => exact ih hrest
    · exact ih h

lemma Called.eq_of_fails {onFailure : OnFailure} {run : σ → Routine σ} {s s' : σ} {reason : String}
    {events : List (PassEvent σ)} (h : Called onFailure run s events (.over s' (some reason))) :
    events = [.calls (run s), .returns s' (some reason)] := by
  obtain ⟨hanswer⟩ := h
  cases hanswer
  rfl

/-- A failure comes from the first passage, or from the second one after the first one has not
failed. -/
lemma FollowedBy.cases_of_fails {p : Passage σ} {q : σ → Passage σ} {events : List (PassEvent σ)}
    {s : σ} {reason : String} (h : FollowedBy p q events (.over s (some reason))) :
    p events (.over s (some reason)) ∨ ∃ first rest s', events = first ++ rest ∧
      q s' rest (.over s (some reason)) := by
  cases h with
  | fails h => exact .inl h
  | goesOn _ hrest => exact .inr ⟨_, _, _, rfl, hrest⟩

/-- The result of a pass that fails is the failure of the callback before, of or after the task, and
that is the last callback of the pass. Hooks have no part in it. -/
theorem Behavior.last_of_pass_fails {b : Behavior σ} {t : Task σ} {s s' : σ}
    {events : List (PassEvent σ)} {reason : String}
    (h : b.pass t s events (.over s' (some reason))) :
    ∃ run ∈ [b.beforeTask, t.run, b.afterTask], ∃ state front,
      events = front ++ [.calls (run state), .returns s' (some reason)] := by
  obtain hbefore | ⟨first, _, s₁, rfl, hrest₁⟩ := FollowedBy.cases_of_fails h
  · exact ⟨b.beforeTask, by simp, s, [], hbefore.eq_of_fails⟩
  obtain hhooks | ⟨second, _, s₂, rfl, hrest₂⟩ := FollowedBy.cases_of_fails hrest₁
  · cases hookPass_succeeds hhooks
  obtain htask | ⟨third, _, s₃, rfl, hrest₃⟩ := FollowedBy.cases_of_fails hrest₂
  · exact ⟨t.run, by simp, s₂, first ++ second, by simp [htask.eq_of_fails]⟩
  obtain hhooks | ⟨fourth, _, s₄, rfl, hrest₄⟩ := FollowedBy.cases_of_fails hrest₃
  · cases hookPass_succeeds hhooks
  obtain hafter | ⟨fifth, _, s₅, rfl, hrest₅⟩ := FollowedBy.cases_of_fails hrest₄
  · exact ⟨b.afterTask, by simp, s₄, first ++ second ++ third ++ fourth,
      by simp [hafter.eq_of_fails]⟩
  · cases hrest₅

/-! ### Passes as lists of callbacks -/

/-- The callbacks of a cycle and the pause at its end. -/
def callsPass (pause : Millis) : List (Call σ) → σ → Passage σ
  | [], s => Pausing pause s
  | c :: calls, s => FollowedBy (Called c.onFailure c.run s) (callsPass pause calls)

section Passages

variable {p p' : Passage σ} {q q' : σ → Passage σ} {events : List (PassEvent σ)}
  {progress : Progress σ}

lemma FollowedBy.imp (h : FollowedBy p q events progress)
    (hp : ∀ events progress, p events progress → p' events progress)
    (hq : ∀ s events progress, q s events progress → q' s events progress) :
    FollowedBy p' q' events progress := by
  cases h with
  | stays h => exact .stays (hp _ _ h)
  | fails h => exact .fails (hp _ _ h)
  | goesOn h hrest => exact .goesOn (hp _ _ h) (hq _ _ _ hrest)

lemma FollowedBy.assoc {r : σ → Passage σ}
    (h : FollowedBy p (fun s => FollowedBy (q s) r) events progress) :
    FollowedBy (FollowedBy p q) r events progress := by
  cases h with
  | stays h => exact .stays (.stays h)
  | fails h => exact .fails (.fails h)
  | goesOn h hrest =>
    cases hrest with
    | stays hrest => exact .stays (.goesOn h hrest)
    | fails hrest => exact .fails (.goesOn h hrest)
    | goesOn hrest hlast =>
      rw [← List.append_assoc]
      exact .goesOn (.goesOn h hrest) hlast

/-- What a callback shows after it has been called. -/
lemma FollowedBy.calls {onFailure : OnFailure} {run : σ → Routine σ} {s : σ}
    (h : FollowedBy (Answered (run s).Ends onFailure) q events progress) :
    FollowedBy (Called onFailure run s) q (PassEvent.calls (run s) :: events) progress := by
  cases h with
  | stays h => exact .stays (.calls h)
  | fails h => exact .fails (.calls h)
  | goesOn h hrest =>
    rw [← List.cons_append]
    exact .goesOn (.calls h) hrest

lemma Answered.imp {ends ends' : σ → Option String → Prop} {onFailure : OnFailure}
    (h : Answered ends onFailure events progress) (himp : ∀ s f, ends s f → ends' s f) :
    Answered ends' onFailure events progress := by
  cases h with
  | awaited => exact .awaited
  | succeeds h => exact .succeeds (himp _ _ h)
  | fatal h => exact .fatal (himp _ _ h)
  | logged h => exact .logged (himp _ _ h)

end Passages

lemma hookCalls_cons (side : String) (h : Hook σ) (hooks : List (Hook σ)) (t : Task σ) :
    hookCalls side (h :: hooks) t =
      if h.scope = none ∨ h.scope = some t.name then
        ⟨h.run, .logged s!"{side}-task hook for {t.name} failed"⟩ :: hookCalls side hooks t
      else hookCalls side hooks t := by
  have happlies : h.appliesTo t.name = true ↔ h.scope = none ∨ h.scope = some t.name := by
    cases hscope : h.scope <;> simp [Hook.appliesTo, hscope]
  simp only [hookCalls, List.filter_cons, happlies]
  split_ifs <;> rfl

/-- The callbacks of hooks are those that `hookPass` calls. -/
lemma hookPass_of_hookCalls {side : String} {hooks : List (Hook σ)} {t : Task σ}
    {pause : Millis} {calls : List (Call σ)} {s : σ} {events : List (PassEvent σ)}
    {progress : Progress σ}
    (h : callsPass pause (hookCalls side hooks t ++ calls) s events progress) :
    FollowedBy (hookPass side t.name hooks s) (callsPass pause calls) events progress := by
  induction hooks generalizing s events progress with
  | nil =>
    rw [← List.nil_append events]
    exact .goesOn .done h
  | cons hook hooks ih =>
    rw [hookCalls_cons] at h
    rw [hookPass]
    split_ifs at h ⊢
    · exact FollowedBy.assoc (FollowedBy.imp h (fun _ _ h => h) fun _ _ _ h => ih h)
    · exact ih h

/-- The callbacks of a cycle and its pause are a pass. -/
theorem Behavior.pass_of_callsPass {b : Behavior σ} {t : Task σ} {s : σ}
    {events : List (PassEvent σ)} {progress : Progress σ}
    (h : callsPass t.delayAfter (b.cycle t) s events progress) : b.pass t s events progress := by
  refine FollowedBy.imp h (fun _ _ h => h) fun s events progress hlater => ?_
  rw [laterCalls, List.append_assoc] at hlater
  refine FollowedBy.imp (hookPass_of_hookCalls hlater) (fun _ _ h => h) fun _ _ _ htask => ?_
  refine FollowedBy.imp htask (fun _ _ h => h) fun _ _ _ hafter => ?_
  exact hookPass_of_hookCalls hafter

/-! ### Users -/

def Effect.message? : Effect → Option Message
  | .log m => some m
  | _ => none

/-- The callback or the pause of a cycle that begins with a phase. -/
def Phase.passEvents (now : Millis) : Phase σ → List (PassEvent σ)
  | .calling (.cycle _ _ _ _) a => [.calls a.routine]
  | .pausing _ _ wakeAt => [.sleeps now wakeAt]
  | _ => []

namespace User

/-- What the callback that the user is inside of comes to at a step, if that ends it. -/
def answer? (u : User σ) (v : View) : Option (σ × Option String) :=
  match u.phase with
  | .calling _ a =>
    match (a.step v.now (some v.run)).1 with
    | .returned state failure => some (state, failure)
    | _ => none
  | _ => none

/-- What a step of a user shows of a pass: how a callback returns, what is logged, and what begins,
unless the user is still inside the same callback. -/
def passEvents (u : User σ) (v : View) : List (PassEvent σ) :=
  ((u.answer? v).toList.map fun answer => .returns answer.1 answer.2) ++
    ((u.step v).2.filterMap Effect.message?).map .logs ++
      if u.isCalling && (u.answer? v).isNone then [] else (u.step v).1.phase.passEvents v.now

/-- The user after a cycle. -/
def afterCycle (u : User σ) (state : σ) (completed : UInt32) : (failure : Option String) → User σ
  | none => u.endCycle state completed
  | some reason => u.tearDown state (some reason)

end User

/-- What the steps of a user show of a pass. -/
def Surroundings.passEvents (s : Surroundings) (u : User σ) : Nat → List (PassEvent σ)
  | 0 => []
  | k + 1 => s.passEvents u k ++ (s.after u k).passEvents (s.view k)

/-- How many cycles a user has done that is in one. -/
def Phase.cycle? : Phase σ → Option UInt32
  | .calling (.cycle completed _ _ _) _ => some completed
  | .pausing _ completed _ => some completed
  | _ => none

/-- A user in a cycle is inside one of its callbacks, or in the pause. -/
lemma Phase.cycle?_eq_some {p : Phase σ} {completed : UInt32} (h : p.cycle? = some completed) :
    (∃ call left pause a, p = .calling (.cycle completed call left pause) a) ∨
      ∃ state wakeAt, p = .pausing state completed wakeAt := by
  cases p with
  | calling stage a =>
    cases stage with
    | cycle done call left pause =>
      cases h
      exact .inl ⟨call, left, pause, a, rfl⟩
    | _ => cases h
  | pausing state done wakeAt =>
    cases h
    exact .inr ⟨state, wakeAt, rfl⟩
  | _ => cases h

/-- A pause that is not over yet. -/
inductive Paused (s : σ) : Passage σ
  | asleep : Paused s [] .underWay
  | rested : Paused s [] (.over s none)

/-- What is left of the pass that a user is in. -/
def Phase.onward : Phase σ → Passage σ
  | .calling (.cycle _ call left pause) a =>
    FollowedBy (Answered a.Ends call.onFailure) (callsPass pause left)
  | .pausing state _ _ => Paused state
  | _ => fun _ _ => False

/-- What is logged when a callback has returned. -/
def Call.messages (c : Call σ) : (failure : Option String) → List Message
  | none => []
  | some reason =>
    match c.onFailure with
    | .fatal => []
    | .logged what => [⟨.error, s!"{what}: {reason}"⟩]

/-- A callback returns, and the pass goes on. -/
lemma Answered.goesOn {ends : σ → Option String → Prop} {c : Call σ} {s : σ}
    {failure : Option String} (hends : ends s failure)
    (hgoes : failure = none ∨ ∃ what, c.onFailure = .logged what) :
    Answered ends c.onFailure (.returns s failure :: (c.messages failure).map .logs)
      (.over s none) := by
  cases failure with
  | none => exact .succeeds hends
  | some reason =>
    obtain ⟨what, hlogged⟩ := hgoes.resolve_left (by simp)
    simp only [Call.messages, hlogged]
    exact .logged hends

namespace User

variable {u : User σ} {v : View}

lemma passEvents_endCycle (u : User σ) (now : Millis) (state : σ) (completed : UInt32) :
    (u.endCycle state completed).phase.passEvents now = [] := by
  rw [endCycle]
  split <;> rfl

lemma messages_returned (u : User σ) (now : Millis) (completed : UInt32) (call : Call σ)
    (left : List (Call σ)) (pause : Millis) (state : σ) (failure : Option String) :
    (u.returned now (.cycle completed call left pause) state failure).2.filterMap Effect.message? =
      call.messages failure := by
  cases failure with
  | none =>
    cases hcall : call.onFailure <;> cases left <;>
      simp [returned, Call.messages, hcall, apply_ite]
  | some reason =>
    cases hcall : call.onFailure <;> cases left <;>
      simp [returned, Call.messages, hcall, Effect.message?, apply_ite]

/-- A callback that goes on shows nothing. -/
lemma passEvents_of_going {stage : Stage σ} {a a' : Activation σ}
    (hphase : u.phase = .calling stage a) (hcut : u.isCutShort v = false)
    (hstep : (a.step v.now (some v.run)).1 = .going a') : u.passEvents v = [] := by
  obtain ⟨habort, -⟩ := Bool.or_eq_false_iff.1 hcut
  have hquiet : (u.step v).2.filterMap Effect.message? = [] := by
    rw [step, if_neg (by simp [habort])]
    cases ha : a.step v.now (some v.run) with
    | mk standing deeds =>
      rw [ha] at hstep
      subst hstep
      simp [hphase, ha, List.filterMap_map, Function.comp_def, Effect.message?]
  simp [passEvents, answer?, isCalling, hphase, hstep, hquiet]

/-- A callback that returns shows that, what is logged, and what begins then. -/
lemma passEvents_of_returned {stage : Stage σ} {a : Activation σ} {state : σ}
    {failure : Option String} (hphase : u.phase = .calling stage a)
    (hstep : (a.step v.now (some v.run)).1 = .returned state failure) :
    u.passEvents v = .returns state failure ::
      (((u.returned v.now stage state failure).2.filterMap Effect.message?).map .logs ++
        (u.returned v.now stage state failure).1.phase.passEvents v.now) := by
  have hu := (step_of_returned hphase hstep).1
  simp [passEvents, answer?, hphase, hstep, hu]

lemma passEvents_of_pausing {state : σ} {completed : UInt32} {wakeAt : Millis}
    (hphase : u.phase = .pausing state completed wakeAt) (hcut : u.isCutShort v = false) :
    u.passEvents v = [] := by
  have hu := (step_of_pausing hphase hcut).1
  simp [passEvents, answer?, isCalling, hphase, hu, passEvents_endCycle]

/-- A user that shows some events goes on with a passage. Either it is still in the cycle then, or
the passage is over and the user goes on by its result. -/
def PassesOn (u : User σ) (completed : UInt32) (passage : Passage σ) (events : List (PassEvent σ))
    (next : User σ) : Prop :=
  (∃ p, next = u.enter p ∧ p.cycle? = some completed ∧
    ∀ rest progress, p.onward rest progress → passage (events ++ rest) progress) ∨
  ∃ state failure, next = u.afterCycle state completed failure ∧
    passage events (.over state failure)

/-- A callback of a cycle that returns makes way for the next one, for the pause, or for what comes
after the cycle. -/
lemma passesOn_of_returned {now : Millis} {completed : UInt32} {call : Call σ}
    {left : List (Call σ)} {pause : Millis} {state : σ} {failure : Option String}
    {ends : σ → Option String → Prop} (hends : ends state failure) :
    u.PassesOn completed (FollowedBy (Answered ends call.onFailure) (callsPass pause left))
      (.returns state failure :: ((call.messages failure).map .logs ++
        (u.returned now (.cycle completed call left pause) state failure).1.phase.passEvents now))
      (u.returned now (.cycle completed call left pause) state failure).1 := by
  rcases call.goesOn_or_fatal failure with hgoes | ⟨reason, rfl, hfatal⟩
  · have hanswer := Answered.goesOn hends hgoes
    obtain ⟨report, hu⟩ := @returned_cycle σ u now state completed call left pause failure hgoes
    rw [hu]
    cases left with
    | cons next left =>
      refine .inl ⟨_, rfl, rfl, fun rest progress hrest => ?_⟩
      have hnext : callsPass pause (next :: left) state (.calls (next.run state) :: rest)
          progress := FollowedBy.calls hrest
      simpa [Phase.passEvents, Activation.begin] using FollowedBy.goesOn hanswer hnext
    | nil =>
      by_cases hpause : pause = 0
      · have hover : callsPass pause [] state [] (.over state none) := Pausing.none hpause
        simp only [if_pos hpause, passEvents_endCycle]
        exact .inr ⟨state, none, rfl, FollowedBy.goesOn hanswer hover⟩
      · simp only [if_neg hpause]
        refine .inl ⟨_, rfl, rfl, fun rest progress hrest => ?_⟩
        have hpaused : callsPass pause [] state (.sleeps now (wakeTime now pause) :: rest)
            progress := by
          cases hrest with
          | asleep => exact .asleep hpause now
          | rested => exact .rested hpause now
        simpa [Phase.passEvents] using FollowedBy.goesOn hanswer hpaused
  · rw [returned_of_fatal hfatal]
    refine .inr ⟨state, some reason, rfl, ?_⟩
    simp only [Call.messages, hfatal]
    exact .fails (hfatal ▸ .fatal hends)

/-- A step of a user in a cycle goes on with the pass. -/
theorem passesOn_step {p : Phase σ} {completed : UInt32} (hcycle : p.cycle? = some completed)
    (hcut : (u.enter p).isCutShort v = false) :
    u.PassesOn completed p.onward ((u.enter p).passEvents v) ((u.enter p).step v).1 := by
  obtain ⟨call, left, pause, a, rfl⟩ | ⟨state, wakeAt, rfl⟩ := Phase.cycle?_eq_some hcycle
  · cases hstep : (a.step v.now (some v.run)).1 with
    | going a' =>
      rw [(step_of_going rfl hcut hstep).1, passEvents_of_going rfl hcut hstep]
      refine .inl ⟨_, rfl, rfl, fun rest progress hrest => ?_⟩
      exact FollowedBy.imp hrest
        (fun _ _ h => h.imp fun _ _ => Activation.ends_of_going hstep) fun _ _ _ h => h
    | returned state failure =>
      rw [passEvents_of_returned rfl hstep, messages_returned, (step_of_returned rfl hstep).1]
      exact passesOn_of_returned (Activation.ends_of_returned hstep)
    | panicked => simp [isCutShort, panics, enter, hstep] at hcut
  · rw [(step_of_pausing rfl hcut).1, passEvents_of_pausing rfl hcut]
    exact .inr ⟨state, none, rfl, .rested⟩

end User

/-- Those in a cycle may stay where they are. -/
lemma Phase.onward_nil {p : Phase σ} {completed : UInt32} (h : p.cycle? = some completed) :
    p.onward [] .underWay := by
  obtain ⟨call, left, pause, a, rfl⟩ | ⟨state, wakeAt, rfl⟩ := Phase.cycle?_eq_some h
  · exact .stays .awaited
  · exact .asleep

lemma User.isCycling_of_cycle? {u : User σ} {p : Phase σ} {completed : UInt32}
    (h : p.cycle? = some completed) : (u.enter p).isCycling := by
  obtain ⟨call, left, pause, a, rfl⟩ | ⟨state, wakeAt, rfl⟩ := Phase.cycle?_eq_some h <;> rfl

/-- The task around which a user begins a cycle. -/
def User.task (u : User σ) (completed : UInt32) : Task σ :=
  u.template.select (u.template.word u.instanceNumber completed.toNat)

lemma User.pass_of_onward {u : User σ} {state : σ} {completed : UInt32}
    {events : List (PassEvent σ)} {progress : Progress σ}
    (h : (u.beginCycle state completed).phase.onward events progress) :
    u.template.pass (u.task completed) state (.calls (u.template.beforeTask state) :: events)
      progress :=
  Behavior.pass_of_callsPass (FollowedBy.calls h)

namespace Surroundings

variable (s : Surroundings) (u : User σ) (state : σ) (completed : UInt32)

/-- What a user shows of a cycle, from its beginning up to some step. -/
def shown (n : Nat) : List (PassEvent σ) :=
  (u.beginCycle state completed).phase.passEvents (s.now 0) ++
    s.passEvents (u.beginCycle state completed) n

/-- The pass of a user is over after some steps, and the user goes on by its result. -/
def PassOver (n : Nat) : Prop :=
  ∃ state' failure,
    s.after (u.beginCycle state completed) n = u.afterCycle state' completed failure ∧
      u.template.pass (u.task completed) state (s.shown u state completed n)
        (.over state' failure)

variable {u state completed}

/-- The steps of a user in a cycle go on with the pass until it is over. -/
theorem passesOn_after {p : Phase σ} (hcycle : p.cycle? = some completed) {n : Nat}
    (hcut : ∀ k < n, s.cutsShort (u.enter p) k = false) :
    (∃ p', s.after (u.enter p) n = u.enter p' ∧ p'.cycle? = some completed ∧
      ∀ rest progress, p'.onward rest progress →
        p.onward (s.passEvents (u.enter p) n ++ rest) progress) ∨
    ∃ m ≤ n, ∃ state failure, s.after (u.enter p) m = u.afterCycle state completed failure ∧
      p.onward (s.passEvents (u.enter p) m) (.over state failure) := by
  induction n with
  | zero => exact .inl ⟨p, rfl, hcycle, fun _ _ h => h⟩
  | succ n ih =>
    rcases ih fun k hk => hcut k (Nat.lt_succ_of_lt hk) with
      ⟨p', hafter, hcycle', honward⟩ | ⟨m, hm, hover⟩
    · have hcut' := hcut n (Nat.lt_succ_self n)
      rw [cutsShort, hafter] at hcut'
      rw [after, passEvents, hafter]
      rcases User.passesOn_step hcycle' hcut' with
        ⟨p'', hnext, hcycle'', hstep⟩ | ⟨state, failure, hnext, hstep⟩
      · refine .inl ⟨p'', hnext, hcycle'', fun rest progress hrest => ?_⟩
        rw [List.append_assoc]
        exact honward _ _ (hstep _ _ hrest)
      · refine .inr ⟨n + 1, Nat.le_refl _, state, failure, ?_, ?_⟩
        · rw [after, hafter, hnext]
        · rw [passEvents, hafter]
          exact honward _ _ hstep
    · exact .inr ⟨m, Nat.le_succ_of_le hm, hover⟩

/-- What a user shows of a cycle that is not cut short is a pass: one that is under way as long as
the user is in the cycle, and then one that is over. -/
theorem pass_of_user {n : Nat}
    (hcut : ∀ k < n, s.cutsShort (u.beginCycle state completed) k = false) :
    (s.after (u.beginCycle state completed) n).isCycling ∧
      u.template.pass (u.task completed) state (s.shown u state completed n) .underWay ∨
    ∃ m ≤ n, s.PassOver u state completed m := by
  rcases s.passesOn_after (u := u) (p := (u.beginCycle state completed).phase) rfl hcut with
    ⟨p, hafter, hcycle, honward⟩ | ⟨m, hm, state', failure, hafter, honward⟩
  · refine .inl ⟨?_, ?_⟩
    · show (s.after (u.enter (u.beginCycle state completed).phase) n).isCycling
      rw [hafter]
      exact User.isCycling_of_cycle? hcycle
    · have hpass := honward [] .underWay (Phase.onward_nil hcycle)
      rw [List.append_nil] at hpass
      exact User.pass_of_onward hpass
  · exact .inr ⟨m, hm, state', failure, hafter, User.pass_of_onward honward⟩

/-- Every cycle is over after some steps, unless the user is cut short inside of it. -/
theorem exists_passOver (u : User σ) (state : σ) (completed : UInt32) :
    ∃ n, (∀ k < n, s.cutsShort (u.beginCycle state completed) k = false) ∧
      (s.PassOver u state completed n ∨
        (s.after (u.beginCycle state completed) n).isCycling ∧
          s.cutsShort (u.beginCycle state completed) n) := by
  by_contra hnever
  push Not at hnever
  have hcycling : ∀ n, (∀ k < n, s.cutsShort (u.beginCycle state completed) k = false) ∧
      (s.after (u.beginCycle state completed) n).isCycling := by
    intro n
    induction n with
    | zero => exact ⟨fun k hk => absurd hk (Nat.not_lt_zero k), rfl⟩
    | succ n ih =>
      obtain ⟨hcut, hin⟩ := ih
      have hcut' : ∀ k < n + 1, s.cutsShort (u.beginCycle state completed) k = false := by
        intro k hk
        rcases Nat.lt_succ_iff_lt_or_eq.1 hk with hk | rfl
        · exact hcut k hk
        · exact Bool.eq_false_iff.2 ((hnever k hcut).2 hin)
      refine ⟨hcut', ?_⟩
      rcases s.pass_of_user hcut' with h | ⟨m, hm, hover⟩
      · exact h.1
      · exact absurd hover (hnever m fun k hk => hcut' k (Nat.lt_of_lt_of_le hk hm)).1
  -- A user that stays in the cycle never comes to decide, so that it would have to end.
  obtain ⟨k, hended⟩ : s.Ends (u.beginCycle state completed) := by
    refine ends_of_cycle (k := 0) rfl fun j _ state' hdeciding => ?_
    have := (hcycling j).2
    rw [User.isCycling, hdeciding] at this
    cases this
  have := (hcycling k).2
  rw [User.isCycling, hended] at this
  cases this

end Surroundings

/-! ### Sessions -/

namespace Session

/-- What a session shows of a pass, done on a bench: the callbacks are played one after the other.
The last one may panic. -/
inductive Enacts (name : String) (number : Nat) :
    (panicked : Bool) → List (PassEvent σ) → Bench → Bench → Prop
  | nothing {b : Bench} : Enacts name number false [] b b
  | returns {r : Routine σ} {state : σ} {failure : Option String} {panicked : Bool}
      {events : List (PassEvent σ)} {b b' b'' : Bench}
      (hplay : r.play name number b = (some (state, failure), b'))
      (hrest : Enacts name number panicked events b' b'') :
      Enacts name number panicked (.calls r :: .returns state failure :: events) b b''
  | panics {r : Routine σ} {b b' : Bench} (hplay : r.play name number b = (none, b')) :
      Enacts name number true [.calls r] b b'
  | logs {m : Message} {panicked : Bool} {events : List (PassEvent σ)} {b b' : Bench}
      (hrest : Enacts name number panicked events
        { b with recorder := b.recorder.log b.now m } b') :
      Enacts name number panicked (.logs m :: events) b b'
  | sleeps {wakeAt : Millis} {panicked : Bool} {events : List (PassEvent σ)} {b b' : Bench}
      (hrest : Enacts name number panicked events { b with now := wakeAt } b') :
      Enacts name number panicked (.sleeps b.now wakeAt :: events) b b'

/-- Play some callbacks, and then the pause unless one of them ends the cycle. -/
def playPass (pause : Millis) (calls : List (Call σ)) (x : Session σ) (b : Bench) :
    Option String × Session σ × Bench :=
  match playCalls calls x b with
  | (none, x, b) => (none, x, { b with now := wakeTime b.now pause })
  | failed => failed

/-- The task around which a session plays its next cycle. -/
def task (x : Session σ) : Task σ := x.template.select (x.template.word x.number x.cycles)

lemma cycle_eq_playPass (x : Session σ) (b : Bench) :
    x.cycle b = playPass x.task.delayAfter (x.template.cycle x.task)
      { x with cycles := x.cycles + 1 } b :=
  rfl

/-- A session plays a pass, of which the last callback panics or else the result is that of the
session. -/
def Passes (x : Session σ) (b : Bench) (passage : Passage σ)
    (result : Option String × Session σ × Bench) : Prop :=
  result.2.1 = { x with state := result.2.1.state } ∧
    ∃ panicked events, Enacts x.template.name x.number panicked events b result.2.2 ∧
      if panicked then result.1 = some "panicked" ∧ passage events .underWay
      else passage events (.over result.2.1.state result.1)

/-- A session plays on after a passage that is over. -/
lemma Passes.andThen {x : Session σ} {state : σ} {b b' : Bench} {p : Passage σ}
    {q : σ → Passage σ} {first : List (PassEvent σ)} {result : Option String × Session σ × Bench}
    (h : Passes { x with state } b' (q state) result) (hfirst : p first (.over state none))
    (henacts : ∀ panicked events,
      Enacts x.template.name x.number panicked events b' result.2.2 →
        Enacts x.template.name x.number panicked (first ++ events) b result.2.2) :
    x.Passes b (FollowedBy p q) result := by
  obtain ⟨hx, panicked, events, hrest, hpass⟩ := h
  refine ⟨hx, panicked, first ++ events, henacts _ _ hrest, ?_⟩
  cases panicked with
  | true => exact ⟨hpass.1, .goesOn hfirst hpass.2⟩
  | false => exact .goesOn hfirst hpass

/-- Callbacks that are played, and the pause after them, are a pass. -/
theorem passes_playPass (pause : Millis) (calls : List (Call σ)) (x : Session σ) (b : Bench) :
    x.Passes b (callsPass pause calls x.state) (playPass pause calls x b) := by
  induction calls generalizing x b with
  | nil =>
    refine ⟨rfl, false, ?_⟩
    by_cases hpause : pause = 0
    · subst hpause
      exact ⟨[], .nothing, .none rfl⟩
    · exact ⟨[.sleeps b.now (wakeTime b.now pause)], .sleeps .nothing, .rested hpause b.now⟩
  | cons c calls ih =>
    rcases hplay : (c.run x.state).play x.template.name x.number b with ⟨_ | ⟨state, failure⟩, b'⟩
    · have hresult : playPass pause (c :: calls) x b = (some "panicked", x, b') := by
        simp only [playPass, playCalls, hplay]
      rw [hresult]
      exact ⟨rfl, true, [.calls (c.run x.state)], .panics hplay, rfl, .stays (.calls .awaited)⟩
    · have hends := Routine.ends_of_play hplay
      rcases failure with _ | reason
      · have hresult :
            playPass pause (c :: calls) x b = playPass pause calls { x with state } b' := by
          simp only [playPass, playCalls, hplay]
        rw [hresult]
        exact (ih _ _).andThen (.calls (.succeeds hends)) fun _ _ h => .returns hplay h
      · cases hcall : c.onFailure with
        | fatal =>
          have hresult : playPass pause (c :: calls) x b = (some reason, { x with state }, b') := by
            simp only [playPass, playCalls, hplay, hcall]
          rw [hresult]
          refine ⟨rfl, false, [.calls (c.run x.state), .returns state (some reason)],
            .returns hplay .nothing, ?_⟩
          exact .fails (.calls (hcall ▸ .fatal hends))
        | logged what =>
          have hresult : playPass pause (c :: calls) x b = playPass pause calls { x with state }
              { b' with
                recorder := b'.recorder.log b'.now ⟨.error, s!"{what}: {reason}"⟩ } := by
            simp only [playPass, playCalls, hplay, hcall]
          rw [hresult]
          have hanswer : Answered (c.run x.state).Ends c.onFailure
              [.returns state (some reason), .logs ⟨.error, s!"{what}: {reason}"⟩]
              (.over state none) := hcall ▸ .logged hends
          refine (ih _ _).andThen (.calls hanswer) fun _ _ h => ?_
          exact .returns hplay (.logs h)

/-- Every cycle that a session plays is a pass. -/
theorem passes_cycle (x : Session σ) (b : Bench) :
    Passes { x with cycles := x.cycles + 1 } b (x.template.pass x.task x.state) (x.cycle b) := by
  rw [cycle_eq_playPass]
  obtain ⟨hx, panicked, events, henacts, hpass⟩ :=
    passes_playPass x.task.delayAfter (x.template.cycle x.task) { x with cycles := x.cycles + 1 } b
  refine ⟨hx, panicked, events, henacts, ?_⟩
  cases panicked with
  | true => exact ⟨hpass.1, Behavior.pass_of_callsPass hpass.2⟩
  | false => exact Behavior.pass_of_callsPass hpass

end Session

/-- A purchase is declined after a hook before it has failed. The hook of another task is passed
over, and the hook after the purchase and the pause are cut off. -/
example :
    let shop : ScriptedBehavior :=
      { name := "shop"
        tasks := [⟨"buy", 1, 500, [[.fail "declined"]]⟩]
        hooks := [⟨true, none, "any", [[.fail "late"]]⟩, ⟨true, some "sell", "sale", []⟩,
          ⟨true, some "buy", "purchase", []⟩, ⟨false, none, "after", []⟩]
        setUp := [], beforeTask := [], afterTask := [], tearDown := [], failing := [] }
    (SessionRoom.ofBehavior shop.behavior).toOption.map (fun room =>
      let played := room.create.2.act 0 Session.cycle
      (played.1, played.2.bench.now, played.2.bench.recorder.events.toList.map Event.label,
        played.2.bench.recorder.entries.toList.map fun e => e.message.text)) =
      some (some (some "declined"), 0, ["before_task", "any", "purchase", "buy"],
        ["Behavior shop declares 1 task(s)", "Before-task hook for buy failed: late"]) := by
  decide +kernel

/-- Every cycle is a pass around the task that is selected for it. A user comes into a cycle only by
beginning it, and what it shows from then on is a pass, which is under way as long as the user is in
the cycle and over after some number of steps, unless the user is cut short inside of it and ends.
Afterwards the user goes on by the result of the pass. A session plays the whole pass at once, up to
a callback that panics if there is one, and has its result. -/
theorem cycles_are_passes :
    (∀ (u : User σ) (v : View), u.isCycling = false → (u.step v).1.isCycling →
      ∃ state completed, (u.step v).1 = u.beginCycle state completed) ∧
    (∀ (s : Surroundings) (u : User σ) (state : σ) (completed : UInt32),
      (∀ n, (∀ k < n, s.cutsShort (u.beginCycle state completed) k = false) →
        (s.after (u.beginCycle state completed) n).isCycling ∧
          u.template.pass (u.task completed) state (s.shown u state completed n) .underWay ∨
        ∃ m ≤ n, s.PassOver u state completed m) ∧
      (∀ n, s.cutsShort (u.beginCycle state completed) n →
        ∀ m > n, (s.after (u.beginCycle state completed) m).phase = .ended) ∧
      ∃ n, (∀ k < n, s.cutsShort (u.beginCycle state completed) k = false) ∧
        (s.PassOver u state completed n ∨
          (s.after (u.beginCycle state completed) n).isCycling ∧
            s.cutsShort (u.beginCycle state completed) n)) ∧
    ∀ (x : Session σ) (b : Bench),
      Session.Passes { x with cycles := x.cycles + 1 } b (x.template.pass x.task x.state)
        (x.cycle b) := by
  refine ⟨fun u v hbefore hafter => ?_, fun s u state completed => ⟨fun n hcut => ?_,
    fun n hcut m hm => ?_, ?_⟩, fun x b => ?_⟩
  · obtain ⟨state, completed, hu, -⟩ := User.begins_cases hbefore hafter
    exact ⟨state, completed, hu⟩
  · exact s.pass_of_user hcut
  · exact (s.over_of_cutsShort hcut hm).1
  · exact s.exists_passOver u state completed
  · exact x.passes_cycle b

end LoadTest
