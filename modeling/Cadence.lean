import Cadence.Console.Program
import Cadence.Controller.Bench
import Cadence.Domain.Scripted
import Cadence.Gate.Post
import Cadence.Gathering.Recorder
import Cadence.Main
import Cadence.Proofs.Framing
import Cadence.Proofs.Pace
import Cadence.Proofs.Permits
import Cadence.Proofs.Position
import Cadence.Proofs.Succession
import Cadence.Proofs.TurnOrder
import Cadence.Text.Blank
import Cadence.Proofs.Occasion
import Cadence.Proofs.Halting
import Cadence.Proofs.Endings
import Cadence.Proofs.Stopping
import Cadence.Proofs.InUse
import Cadence.Proofs.Launching
import Cadence.Proofs.Callbacks
import Cadence.Proofs.Draining
import Cadence.Proofs.Fairness
import Cadence.Proofs.Freeing
import Cadence.Proofs.Attending
import Cadence.Proofs.RunningOut
import Cadence.Proofs.TurnCount
import Cadence.Proofs.Subscribing
import Cadence.Proofs.Feeding
import Cadence.Proofs.Undisturbed
import Cadence.Proofs.Rendering
import Cadence.Proofs.Counting
import Cadence.Proofs.Blaming
import Cadence.Proofs.Reporting
import Cadence.Proofs.Printing
import Cadence.Proofs.Mirroring
import Cadence.Proofs.Capacity
import Cadence.Proofs.Diagnosing
import Cadence.Proofs.Quoting
import Cadence.Proofs.Conserving
import Cadence.Proofs.Loading
import Cadence.Proofs.Viewing
import Cadence.Proofs.Scripting
