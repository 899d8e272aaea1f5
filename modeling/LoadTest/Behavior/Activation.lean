import LoadTest.Behavior.Basic

/-!
# Routines in progress

A routine is carried out one action at a time. Each action either goes on, or ends the routine; and
it may do something that others can notice.
-/

namespace LoadTest

variable {σ : Type}

/-- A transaction that has begun, and what follows it. -/
structure OpenTransaction (σ : Type) where
  labels : Labels
  since : Millis
  next : σ → Option String → Routine σ

/-- A routine in progress: what is left of it, and the transactions it is within, innermost first.
-/
structure Activation (σ : Type) where
  routine : Routine σ
  opened : List (OpenTransaction σ) := []
  /-- The instant until which it sleeps. -/
  wakeAt : Option Millis := none

/-- What others can notice of an action. -/
inductive Deed where
  | record (label : String)
  | transaction (labels : Labels) (succeeded : Bool) (elapsed : Millis)
  | raise
  deriving DecidableEq, Repr

/-- How a routine stands after an action. -/
inductive Standing (σ : Type) where
  | going (a : Activation σ)
  | returned (state : σ) (failure : Option String)
  | panicked

/-- Begin a routine. -/
def Activation.begin (r : Routine σ) : Activation σ := { routine := r }

/-- Carry out the next action, at instant `now` and within a run, if there is one. A sleeper wakes
up. -/
def Activation.step (a : Activation σ) (now : Millis) (run : Option RunView) :
    Standing σ × List Deed :=
  if a.wakeAt.isSome then (.going { a with wakeAt := none }, [])
  else
    match a.routine, a.opened with
    | .finish s f, [] => (.returned s f, [])
    | .finish s f, t :: ts =>
      (.going { routine := t.next s f, opened := ts },
        [.transaction t.labels f.isNone (now - t.since)])
    | .panic _, _ => (.panicked, [])
    | .sleep 0 next, _ => (.going { a with routine := next }, [])
    | .sleep d next, _ => (.going { a with routine := next, wakeAt := some (wakeTime now d) }, [])
    | .record label next, _ => (.going { a with routine := next }, [.record label])
    | .look next, _ => (.going { a with routine := next run }, [])
    | .raise next, _ =>
      match run with
      | none => (.going { a with routine := next none }, [])
      | some v => (.going { a with routine := next (some !v.raised) }, [.raise])
    | .transact labels body next, ts =>
      (.going { routine := body, opened := ⟨labels, now, next⟩ :: ts }, [])

end LoadTest
