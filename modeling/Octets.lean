import Octets.Main
import Octets.Report
import Octets.Routine
import Octets.Proofs.Bytes.Signed
import Octets.Proofs.Command.HexBuffers
import Octets.Proofs.Command.Reports
import Octets.Proofs.Command.Taken
import Octets.Proofs.Pipeline.Exchange
import Octets.Proofs.Pipeline.InPlace
import Octets.Proofs.Pipeline.Oblivious
import Octets.Proofs.Pipeline.Precedence
import Octets.Proofs.Pipeline.Records
import Octets.Proofs.Plugin.Samples
import Octets.Proofs.Session.Immutable
import Octets.Proofs.Transform.Refusal
import Octets.Proofs.Transform.Resized
import Octets.Proofs.Transform.Mirrored
import Octets.Proofs.Transform.Shuffle
import Octets.Proofs.Transform.Sorted
import Octets.Proofs.Value.Parse
import Octets.Proofs.Registry.History
import Octets.Proofs.Session.Registries
import Octets.Proofs.Transform.Shift
import Octets.Proofs.Transform.WholeBytes
import Octets.Proofs.Json.Documents
import Octets.Proofs.Json.Text
import Octets.Proofs.Log.Line
import Octets.Proofs.Log.Trace
import Octets.Proofs.Log.Wiring
import Octets.Proofs.Log.WiringRuns
import Octets.Proofs.Session.Trace
import Octets.Proofs.Command.Merging
import Octets.Proofs.Registry.Rebuilt
