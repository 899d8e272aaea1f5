import LoadTest.Population.Roster
import LoadTest.World.Recorder

/-!
# Pools outside of runs

A pool whose operations are called one by one. Its users do nothing and never end by themselves.
-/

namespace LoadTest

/-- A pool with all its users, and the clock and the recordings. -/
structure PoolRoom where
  /-- The behavior that the pool is named for. -/
  name : String
  roster : Roster := {}
  now : Millis := 0
  recorder : Recorder := {}
  deriving Inhabited

namespace PoolRoom

def publish (r : PoolRoom) : PoolRoom :=
  { r with recorder := r.recorder.setGauge (liveUsersGauge r.name) r.roster.pool.count }

def add (r : PoolRoom) (mode : Mode) : UserId × PoolRoom :=
  let ((id, late), roster) := r.roster.add mode
  let r := publish { r with roster }
  (id, if late then { r with recorder := r.recorder.log r.now (Message.late id) } else r)

/-- Take users out of the live ones, and ask them to stop if that is wanted. The answer is their
ids. -/
def take (r : PoolRoom) (amount : Nat) (mode : Mode) (stop : Bool) : List UserId × PoolRoom :=
  let (ids, roster) := r.roster.take amount mode stop
  (ids, publish { r with roster })

def exit (r : PoolRoom) (id : UserId) : Bool × PoolRoom :=
  let ((there, live), roster) := r.roster.exit id
  let r := { r with roster }
  (there, if live then r.publish else r)

def abortUser (r : PoolRoom) (id : UserId) : PoolRoom := { r with roster := r.roster.abortUser id }

/-- Abort everyone within reach of the pool. The answer is how many there are. -/
def abortAll (r : PoolRoom) : Nat × PoolRoom :=
  let (aborted, roster) := r.roster.abortAll
  (aborted, { r with roster })

/-- Wait until no user is live, but no longer than `limit`. The answer is whether none is. As nobody
leaves meanwhile, the wait is over at once or takes all the time. -/
def wait (r : PoolRoom) (limit : Millis) : Bool × PoolRoom :=
  if r.roster.pool.count = 0 then (true, r) else (false, { r with now := r.now + limit })

end PoolRoom

end LoadTest
