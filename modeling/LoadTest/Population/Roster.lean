import LoadTest.Population.Pool

/-!
# Rosters

A pool together with those who have left it, so that every user there ever was can be looked at and
aborted. The users of a roster never end by themselves.
-/

namespace LoadTest

/-- A pool, and the users that have left it. -/
structure Roster where
  pool : Pool := {}
  departed : List Member := []
  deriving Repr, Inhabited

namespace Roster

def add (r : Roster) (mode : Mode) : (UserId × Bool) × Roster :=
  let (id, pool) := r.pool.issueId
  ((id, pool.aborted), { r with pool := pool.register { id, mode } })

/-- Take users out of the live ones, and ask them to stop if that is wanted. -/
def take (r : Roster) (amount : Nat) (mode : Mode) (stop : Bool) : List UserId × Roster :=
  let (taken, pool) := r.pool.take amount mode
  let ids := taken.map Member.id
  (ids, { r with pool := if stop then pool.update .requestStop ids else pool })

/-- A user leaves. The answer is whether it was there, and whether it was live. -/
def exit (r : Roster) (id : UserId) : (Bool × Bool) × Roster :=
  match r.pool.find? id with
  | none => ((false, false), r)
  | some m =>
    ((true, r.pool.isLive id),
      { pool := r.pool.deregister id, departed := insertMember m r.departed })

def abortUser (r : Roster) (id : UserId) : Roster where
  pool := r.pool.update .abort [id]
  departed := r.departed.map fun m => if m.id = id then m.abort else m

def abortAll (r : Roster) : Nat × Roster :=
  let (n, pool) := r.pool.abortAll
  (n, { r with pool })

/-- Every user there ever was. -/
def users (r : Roster) : List Member := r.pool.members.foldr insertMember r.departed

end Roster

end LoadTest
