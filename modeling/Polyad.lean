import Polyad.Json.Reader
import Polyad.Machine.Copy
import Polyad.Machine.Load
import Polyad.Main
import Polyad.Proofs.Family.Members
import Polyad.Proofs.Family.Built
import Polyad.Proofs.Code.ImportBlock
import Polyad.Proofs.Code.Scope
import Polyad.Proofs.Generated.Names
import Polyad.Proofs.Generated.Fulfilment
import Polyad.Proofs.Generated.Files
import Polyad.Proofs.Generated.Bodies
import Polyad.Proofs.Generated.Scope
import Polyad.Proofs.Machine.Steps
import Polyad.Proofs.Machine.Lookup
import Polyad.Proofs.Machine.Emitted
import Polyad.Proofs.Machine.Stored
import Polyad.Proofs.Machine.Reading
import Polyad.Proofs.Machine.Identity
import Polyad.Proofs.Machine.ReadBack
import Polyad.Proofs.Machine.NullTuple
import Polyad.Proofs.Machine.OpenTuple
import Polyad.Proofs.Machine.Executed
import Polyad.Proofs.Machine.Loaded
import Polyad.Proofs.Machine.Tuples
import Polyad.Proofs.Machine.Factory
import Polyad.Proofs.Machine.Chain
import Polyad.Proofs.Disk.Growth
import Polyad.Proofs.Disk.Temporary
import Polyad.Proofs.Disk.Faults
import Polyad.Proofs.Disk.Replacing
import Polyad.Proofs.Disk.Atomic
import Polyad.Proofs.Run.Outcome
import Polyad.Proofs.Text.Lines
import Polyad.Proofs.Code.Anchor
import Polyad.Proofs.Code.Layout
import Polyad.Proofs.Code.Document
import Polyad.Proofs.Json.Strings
import Polyad.Proofs.Json.Numbers
import Polyad.Proofs.Json.Trees
import Polyad.Proofs.Family.Drafts
import Polyad.Proofs.Family.Documents
import Polyad.Proofs.Code.ImportReading
import Polyad.Proofs.Config.Grammar
import Polyad.Proofs.Code.Heading
import Polyad.Proofs.Generated.Heading
import Polyad.Proofs.Config.Header
import Polyad.Proofs.Machine.Outcomes
import Polyad.Proofs.Machine.Answers
import Polyad.Proofs.Machine.Comparing
import Polyad.Proofs.Machine.ValueIdentity
import Polyad.Proofs.Code.Statements
import Polyad.Proofs.Code.Transparency
import Polyad.Proofs.Machine.Projection
import Polyad.Proofs.Machine.Conversion
import Polyad.Proofs.Machine.RoundTrip
import Polyad.Proofs.Family.Rules
import Polyad.Proofs.Generated.Refusal
import Polyad.Proofs.Text.Utf8
import Polyad.Proofs.Run.Loading
import Polyad.Proofs.Generated.Larger
import Polyad.Proofs.Config.Flags
import Polyad.Proofs.Disk.PathText
import Polyad.Proofs.Generated.Asked
import Polyad.Proofs.Generated.Failures
import Polyad.Proofs.Config.Rendering
import Polyad.Proofs.Config.Modules
import Polyad.Proofs.Code.Margin
import Polyad.Proofs.Code.Outlined
import Polyad.Proofs.Code.Docstrings
import Polyad.Proofs.Disk.Rewriting
import Polyad.Proofs.Run.Idempotence
import Polyad.Proofs.Machine.Harmless
import Polyad.Proofs.Machine.Keeping
import Polyad.Proofs.Machine.KeepingCalls
import Polyad.Proofs.Machine.KeepingRuns
import Polyad.Proofs.Machine.HarmlessFiles
import Polyad.Proofs.Machine.Initialising
import Polyad.Proofs.Machine.Immutability
import Polyad.Proofs.Text.Breaks
