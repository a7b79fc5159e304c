import Gridfall.Machine.Encoding
import Gridfall.Machine.Timing
import Gridfall.Main
import Gridfall.Proofs.Frame
import Gridfall.Proofs.Kinds
import Gridfall.Proofs.Tick.Plumbing
import Gridfall.Proofs.Routing.LoopGuard
import Gridfall.Proofs.Operator.Conform
import Gridfall.Proofs.Tick.Attempt
import Gridfall.Proofs.Tick.Cellwise
import Gridfall.Proofs.Tick.Scan
import Gridfall.Proofs.Tick.Progress
import Gridfall.Proofs.Tick.Travel
import Gridfall.Proofs.Tick.Quiet
import Gridfall.Proofs.Routing.Termination
import Gridfall.Proofs.Noninterference
import Gridfall.Proofs.Source.Loading
import Gridfall.Proofs.Drivers
import Gridfall.Proofs.Suite.Verdict
import Gridfall.Proofs.Console
import Gridfall.Proofs.Suite.RoundTrip
import Gridfall.Proofs.Symbols
import Gridfall.Proofs.Snapshot
import Gridfall.Proofs.Routing.Atomic
import Gridfall.Proofs.Encoding
import Gridfall.Proofs.Source.Course
import Gridfall.Proofs.Source.Written
import Gridfall.Proofs.Source.Sheet
import Gridfall.Proofs.Suite.Header
import Gridfall.Proofs.Source.Lockstep
import Gridfall.Proofs.Source.Comment
import Gridfall.Proofs.Routing.Writes
import Gridfall.Proofs.Tick.Account
import Gridfall.Proofs.Routing.Wall
import Gridfall.Proofs.Tick.Coupling
import Gridfall.Proofs.Tick.Failure
import Gridfall.Proofs.Source.Picture
import Gridfall.Proofs.Search
import Gridfall.Proofs.Operator.Faults
import Gridfall.Proofs.Operator.Repetition
import Gridfall.Proofs.Removal
import Gridfall.Proofs.Number
import Gridfall.Proofs.Routing.Simulation
import Gridfall.Proofs.Routing.Payload
import Gridfall.Proofs.Reversal
import Gridfall.Proofs.Random
import Gridfall.Proofs.Utf8
import Gridfall.Proofs.Suite.Isolation
import Gridfall.Proofs.Transcript
import Gridfall.Proofs.Stream
import Gridfall.Proofs.Digest
import Gridfall.Proofs.Routing.Trail
import Gridfall.Proofs.Routing.Pairing
import Gridfall.Proofs.Tick.Axes
