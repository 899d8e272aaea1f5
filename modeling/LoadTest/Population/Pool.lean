import LoadTest.Lifecycle

/-!
# The pool of a run

The users of a run whose task has not ended, in the order of their ids, which is the order of their
creation. A removed user stops being live right away, but drains: it stays within reach until its
task ends. Once the pool has been aborted, users that still arrive are aborted too.
-/

namespace LoadTest

/-- Users of a run are numbered from 0. -/
abbrev UserId := Nat

/-- What the pool knows of a user. -/
structure Member where
  id : UserId
  mode : Mode
  /-- Nobody has asked the user to stop. -/
  active : Bool := true
  /-- The user's task is to end at its next suspension. -/
  aborted : Bool := false
  deriving DecidableEq, Repr, Inhabited

/-- Ask a user to stop. Looped and cycled users finish their cycle first. -/
def Member.requestStop (m : Member) : Member := { m with active := false }

def Member.abort (m : Member) : Member := { m.requestStop with aborted := true }

/-- Put a member where its id belongs. -/
def insertMember (m : Member) : List Member → List Member
  | [] => [m]
  | n :: ms => if m.id < n.id then m :: n :: ms else n :: insertMember m ms

/-- The members of `ms`, and of those that stay, with up to `amount` members of a mode picked out
from the front. -/
def takeOldest (mode : Mode) : (amount : Nat) → (ms : List Member) → List Member × List Member
  | _, [] => ([], [])
  | 0, ms => ([], ms)
  | n + 1, m :: ms =>
    if m.mode = mode then
      let (taken, left) := takeOldest mode n ms
      (m :: taken, left)
    else
      let (taken, left) := takeOldest mode (n + 1) ms
      (taken, m :: left)

structure Pool where
  live : List Member := []
  /-- Removed users whose task has not ended. -/
  draining : List Member := []
  /-- Everyone has been aborted, and who arrives will be. -/
  aborted : Bool := false
  /-- The number of live users, as last published. -/
  count : Nat := 0
  /-- The greatest number of live users ever published. -/
  peak : Nat := 0
  nextId : UserId := 0
  deriving DecidableEq, Repr, Inhabited

namespace Pool

/-- Every user within reach. -/
def members (p : Pool) : List Member := p.live ++ p.draining

def find? (p : Pool) (id : UserId) : Option Member :=
  (p.live.find? (·.id == id)).or (p.draining.find? (·.id == id))

theorem find?_eq_find?_members (p : Pool) (id : UserId) :
    p.find? id = p.members.find? (·.id == id) := by
  simp [find?, members, List.find?_append]

def publish (p : Pool) : Pool :=
  { p with count := p.live.length, peak := max p.peak p.live.length }

def issueId (p : Pool) : UserId × Pool := (p.nextId, { p with nextId := p.nextId + 1 })

/-- Enter a user among the live ones. -/
def register (p : Pool) (m : Member) : Pool :=
  publish { p with live := insertMember (if p.aborted then m.abort else m) p.live }

def isLive (p : Pool) (id : UserId) : Bool := p.live.any (·.id == id)

/-- Let go of a user whose task ends. Only the end of a live user is published. -/
def deregister (p : Pool) (id : UserId) : Pool :=
  if p.isLive id then publish { p with live := p.live.filter (·.id != id) }
  else { p with draining := p.draining.filter (·.id != id) }

/-- Take up to `amount` of the oldest live users of a mode out of the live ones. -/
def take (p : Pool) (amount : Nat) (mode : Mode) : List Member × Pool :=
  let (taken, left) := takeOldest mode amount p.live
  (taken, publish { p with live := left, draining := taken.foldr insertMember p.draining })

def update (p : Pool) (f : Member → Member) (ids : List UserId) : Pool :=
  let change (m : Member) := if m.id ∈ ids then f m else m
  { p with live := p.live.map change, draining := p.draining.map change }

/-- Abort everyone within reach, and who arrives from now on. The answer is how many are within
reach. -/
def abortAll (p : Pool) : Nat × Pool :=
  (p.members.length,
    { p with live := p.live.map .abort, draining := p.draining.map .abort, aborted := true })

end Pool

end LoadTest
