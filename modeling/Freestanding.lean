import Freestanding.Exit.Program
import Freestanding.Exit.Procedure
import Freestanding.Layout.Product
import Freestanding.Layout.Steps
import Freestanding.Main
import Freestanding.Proofs.Image.Description
import Freestanding.Proofs.Image.RoundTrip
import Freestanding.Proofs.Image.Resolution
import Freestanding.Proofs.Image.PlainNames
import Freestanding.Proofs.Image.ReservedIndex
import Freestanding.Proofs.Image.Extension
import Freestanding.Proofs.Image.Agreement
import Freestanding.Proofs.Image.ReportLine
import Freestanding.Proofs.Kernel.Answer
import Freestanding.Proofs.Kernel.Decoding
import Freestanding.Proofs.Kernel.Conservation
import Freestanding.Proofs.Kernel.Interruption
import Freestanding.Proofs.Kernel.Contract
import Freestanding.Proofs.Kernel.Taking
import Freestanding.Proofs.Kernel.Outcome
import Freestanding.Proofs.Kernel.Termination
import Freestanding.Proofs.Kernel.Pieces
import Freestanding.Proofs.Json.Grammar
import Freestanding.Proofs.Json.Number
import Freestanding.Proofs.Json.Reader
import Freestanding.Proofs.Json.Items
import Freestanding.Proofs.Json.Record
import Freestanding.Proofs.Json.Scalar
import Freestanding.Proofs.Json.Unambiguous
import Freestanding.Proofs.Text.Numeral
import Freestanding.Proofs.Text.Printed
import Freestanding.Proofs.Files.Writing
import Freestanding.Proofs.Layout.Meaning
import Freestanding.Proofs.Layout.Acceptance
import Freestanding.Proofs.Layout.Truncation
import Freestanding.Proofs.Layout.Constants
import Freestanding.Proofs.Layout.Encodings
import Freestanding.Proofs.Layout.Presentation
import Freestanding.Proofs.Layout.Statuses
import Freestanding.Proofs.Layout.Steps
import Freestanding.Proofs.Layout.Precedence
import Freestanding.Proofs.Region.Views
import Freestanding.Proofs.Region.ZeroCount
import Freestanding.Proofs.Region.Containment
import Freestanding.Proofs.Exit.Tracing
import Freestanding.Proofs.Exit.LastStatus
import Freestanding.Proofs.Exit.Output
import Freestanding.Proofs.Exit.ProbeStatus
import Freestanding.Proofs.Inspector.Contract
