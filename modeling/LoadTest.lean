import LoadTest.Behavior.Script
import LoadTest.Control.ConfigJson
import LoadTest.Control.Controller
import LoadTest.Main
import LoadTest.Proofs.Aborting
import LoadTest.Proofs.Agreement
import LoadTest.Proofs.Arguments
import LoadTest.Proofs.Audit
import LoadTest.Proofs.Balance
import LoadTest.Proofs.Binding
import LoadTest.Proofs.Comments
import LoadTest.Proofs.Concluding
import LoadTest.Proofs.Counters
import LoadTest.Proofs.Course
import LoadTest.Proofs.Coverage
import LoadTest.Proofs.Cuts
import LoadTest.Proofs.CycleCounts
import LoadTest.Proofs.Dealings
import LoadTest.Proofs.Decoding
import LoadTest.Proofs.Drafting
import LoadTest.Proofs.Dropping
import LoadTest.Proofs.Emptying
import LoadTest.Proofs.Encoding
import LoadTest.Proofs.Ending
import LoadTest.Proofs.Extent
import LoadTest.Proofs.Faults
import LoadTest.Proofs.Finishing
import LoadTest.Proofs.Following
import LoadTest.Proofs.Forecast
import LoadTest.Proofs.Grammar
import LoadTest.Proofs.Guarding
import LoadTest.Proofs.Habits
import LoadTest.Proofs.Isolation
import LoadTest.Proofs.Joining
import LoadTest.Proofs.Layout
import LoadTest.Proofs.Location
import LoadTest.Proofs.Meaning
import LoadTest.Proofs.Members
import LoadTest.Proofs.Moves
import LoadTest.Proofs.NormalForm
import LoadTest.Proofs.Openings
import LoadTest.Proofs.OperationTurns
import LoadTest.Proofs.Outline
import LoadTest.Proofs.Pacing
import LoadTest.Proofs.Passes
import LoadTest.Proofs.PoolHistory
import LoadTest.Proofs.Ramps
import LoadTest.Proofs.Reachable
import LoadTest.Proofs.Refusal
import LoadTest.Proofs.Registrations
import LoadTest.Proofs.Removals
import LoadTest.Proofs.Repetition
import LoadTest.Proofs.Resemblance
import LoadTest.Proofs.Resting
import LoadTest.Proofs.Settling
import LoadTest.Proofs.Shares
import LoadTest.Proofs.Sleeping
import LoadTest.Proofs.Slices
import LoadTest.Proofs.SmallLetters
import LoadTest.Proofs.Spells
import LoadTest.Proofs.Staffing
import LoadTest.Proofs.Stopping
import LoadTest.Proofs.Succession
import LoadTest.Proofs.TimeUnits
import LoadTest.Proofs.Timetable
import LoadTest.Proofs.Transactions
import LoadTest.Proofs.Turns
import LoadTest.Proofs.TypedLines
import LoadTest.Proofs.UnderWay
import LoadTest.Proofs.UserTurns
import LoadTest.Proofs.Vigils
import LoadTest.Proofs.Waiting
import LoadTest.Proofs.Watching
import LoadTest.Scenario.Inspection
import LoadTest.Service.Console
import LoadTest.Service.DryRun
import LoadTest.Service.Http
import LoadTest.Service.Startup
import LoadTest.World.PoolRoom
import LoadTest.World.Rehearsal
import LoadTest.World.Session
