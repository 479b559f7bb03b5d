import CommandLine.Main
import CommandLine.Session
import CommandLine.Proofs.Accepted
import CommandLine.Proofs.Boundaries
import CommandLine.Proofs.Rearrangement
import CommandLine.Proofs.Invariant
import CommandLine.Proofs.Failures
import CommandLine.Proofs.Frame
import CommandLine.Proofs.Growth
import CommandLine.Proofs.Handles
import CommandLine.Proofs.Frozen
import CommandLine.Proofs.Sessions
import CommandLine.Proofs.NameHistory
import CommandLine.Proofs.Declarations
import CommandLine.Proofs.FlagSpec
import CommandLine.Proofs.Reflection
import CommandLine.Proofs.Building
import CommandLine.Proofs.Report
import CommandLine.Proofs.SlotHistory
import CommandLine.Proofs.HelpRequests
import CommandLine.Proofs.HostOutcome
import CommandLine.Proofs.LastFailure
import CommandLine.Proofs.HelpText
import CommandLine.Proofs.Literal
import CommandLine.Proofs.FlagNames
import CommandLine.Proofs.Rendering
import CommandLine.Proofs.NumberLists
import CommandLine.Proofs.Cursor
import CommandLine.Proofs.HelpLayout
import CommandLine.Proofs.JsonText
import CommandLine.Proofs.JsonDecode
import CommandLine.Proofs.ReportText
import CommandLine.Proofs.Appending
import CommandLine.Proofs.Shapes
