import ContainerDocs.Main
import ContainerDocs.Proofs.Analysis.Agreement
import ContainerDocs.Proofs.Analysis.Isolation
import ContainerDocs.Proofs.Analysis.Pull
import ContainerDocs.Proofs.Analysis.Quiet
import ContainerDocs.Proofs.Calendar.RoundTrip
import ContainerDocs.Proofs.Config.Anchoring
import ContainerDocs.Proofs.Config.Outcome
import ContainerDocs.Proofs.Dockerfile.Comments
import ContainerDocs.Proofs.Dockerfile.Continuation
import ContainerDocs.Proofs.Dockerfile.HereDocument
import ContainerDocs.Proofs.Dockerfile.Indentation
import ContainerDocs.Proofs.Dockerfile.Quoting
import ContainerDocs.Proofs.Dockerfile.RoundTrip
import ContainerDocs.Proofs.Documentation.Pairing
import ContainerDocs.Proofs.Image.Collections
import ContainerDocs.Proofs.Image.Registry
import ContainerDocs.Proofs.Output.Overwriting
import ContainerDocs.Proofs.Output.OwnFiles
import ContainerDocs.Proofs.Output.Sections
import ContainerDocs.Proofs.Program.Columns
import ContainerDocs.Proofs.Program.Commands
import ContainerDocs.Proofs.Program.Completes
import ContainerDocs.Proofs.Program.DryRun
import ContainerDocs.Proofs.Program.Rerun
import ContainerDocs.Proofs.Program.Strict
import ContainerDocs.Proofs.Report.Data
import ContainerDocs.Proofs.Report.Html
import ContainerDocs.Proofs.Report.MetricTables
import ContainerDocs.Proofs.Tool.LayerReport
import ContainerDocs.Proofs.Tool.Listings
import ContainerDocs.Proofs.Tool.Socket
