import LoadTest.Behavior.Routine
import LoadTest.Error

/-!
# Behaviors

What the users of a run do: a set-up, cycles of one task each with the hooks around it, and a
tear-down. A behavior becomes a template once its tasks are known to be some, and of positive
weight.
-/

namespace LoadTest

variable {σ : Type}

/-- A unit of work, chosen in proportion to its weight. -/
structure Task (σ : Type) where
  name : String
  weight : Nat := 1
  /-- The pause after the task and its hooks, in whole milliseconds. -/
  delayAfter : Millis := 0
  run : σ → Routine σ

/-- A callback around the task of a name, or around every task. -/
structure Hook (σ : Type) where
  scope : Option String
  run : σ → Routine σ

def Hook.appliesTo (h : Hook σ) (task : String) : Bool := h.scope.all (· == task)

/-- The tasks of a behavior and the hooks around them, in the order of their registration. -/
structure TaskSet (σ : Type) where
  tasks : List (Task σ) := []
  before : List (Hook σ) := []
  after : List (Hook σ) := []

def TaskSet.totalWeight (s : TaskSet σ) : Nat := s.tasks.foldr (fun t total => t.weight + total) 0

/-- What it comes to when an instance is to be made. -/
inductive Creation (σ : Type) where
  | ok (state : σ)
  | error (reason : String)
  | panic (reason : String)

/-- A behavior: how its instances are made and what their callbacks do. -/
structure Behavior (σ : Type) where
  name : String
  taskSet : TaskSet σ
  /-- Make the instance of a number, or fail to. Instances are numbered as they are asked for. -/
  create : Nat → Creation σ
  setUp : σ → Routine σ
  beforeTask : σ → Routine σ
  afterTask : σ → Routine σ
  tearDown : σ → Routine σ
  /-- The random word that an instance draws for the selection of a task in its n-th cycle. -/
  word : (instanceNumber cycle : Nat) → UInt64

/-- A behavior whose task set can be selected from. -/
structure Template (σ : Type) extends Behavior σ where
  first : Task σ
  others : List (Task σ)
  tasks_eq : taskSet.tasks = first :: others
  weight_pos : ∀ t ∈ taskSet.tasks, 0 < t.weight

/-- Check a behavior. It needs a task, and no task may have weight zero. -/
def Behavior.validate (b : Behavior σ) : Except BehaviorError (Template σ) :=
  match h : b.taskSet.tasks with
  | [] => .error (.noTasks b.name)
  | first :: others =>
    match hw : b.taskSet.tasks.find? fun t => t.weight == 0 with
    | some t => .error (.invalidWeight t.name t.weight)
    | none =>
      .ok
        { b with
          first, others
          tasks_eq := h
          weight_pos := fun t ht => by
            have := List.find?_eq_none.1 hw t ht
            simp only [beq_iff_eq] at this
            omega }

/-! ### Cycles -/

/-- What the failing of a callback means to the cycle it stands in. -/
inductive OnFailure where
  | fatal
  /-- The failure is logged with these words in front, and the cycle goes on. -/
  | logged (what : String)
  deriving DecidableEq, Repr

/-- One callback of a cycle. -/
structure Call (σ : Type) where
  run : σ → Routine σ
  onFailure : OnFailure

/-- Those of some hooks that belong to a task, as callbacks of its cycle. -/
def hookCalls (side : String) (hooks : List (Hook σ)) (t : Task σ) : List (Call σ) :=
  (hooks.filter (·.appliesTo t.name)).map fun h =>
    ⟨h.run, .logged s!"{side}-task hook for {t.name} failed"⟩

/-- The callback that every cycle begins with. -/
def Behavior.firstCall (b : Behavior σ) : Call σ := ⟨b.beforeTask, .fatal⟩

/-- The callbacks of a cycle around a task, after the first one. -/
def Behavior.laterCalls (b : Behavior σ) (t : Task σ) : List (Call σ) :=
  hookCalls "Before" b.taskSet.before t ++ ⟨t.run, .fatal⟩
    :: hookCalls "After" b.taskSet.after t ++ [⟨b.afterTask, .fatal⟩]

/-- The callbacks of a cycle around a task, in order. -/
def Behavior.cycle (b : Behavior σ) (t : Task σ) : List (Call σ) := b.firstCall :: b.laterCalls t

end LoadTest
