import JavaAtlas.Main
import JavaAtlas.Http.Router
import JavaAtlas.Proofs.Analysis.Admission
import JavaAtlas.Proofs.Analysis.Completion
import JavaAtlas.Proofs.Analysis.PlatformTypes
import JavaAtlas.Proofs.Analysis.Refinement
import JavaAtlas.Proofs.Analysis.Targets
import JavaAtlas.Proofs.Discovery.Coverage
import JavaAtlas.Proofs.EventStream.Delivery
import JavaAtlas.Proofs.Extraction.Positions
import JavaAtlas.Proofs.Header.Agreement
import JavaAtlas.Proofs.Header.Patterns
import JavaAtlas.Proofs.Resolution.DeclaredTypes
import JavaAtlas.Proofs.Resolution.Qualification
import JavaAtlas.Proofs.Extraction.SelfReferences
import JavaAtlas.Proofs.Extraction.FailingOracles
import JavaAtlas.Proofs.Discovery.Revision
import JavaAtlas.Proofs.Analysis.Revision
import JavaAtlas.Proofs.Syntax.Lookahead
import JavaAtlas.Proofs.Syntax.Comments
import JavaAtlas.Proofs.Syntax.Alike
import JavaAtlas.Proofs.SourceUnit.Alike
import JavaAtlas.Proofs.SourceUnit.Comments
import JavaAtlas.Proofs.Json.Document
import JavaAtlas.Report.Gathered
import JavaAtlas.Proofs.Graph.Growth
import JavaAtlas.Proofs.Graph.Order
import JavaAtlas.Proofs.Graph.Queries
import JavaAtlas.Proofs.Graph.Dot
import JavaAtlas.Proofs.Http.Feed
import JavaAtlas.Proofs.Json.Forms
import JavaAtlas.Proofs.Report.Order
import JavaAtlas.Proofs.Report.Text
import JavaAtlas.Http.Feed
import JavaAtlas.Proofs.Http.ServerEvents
import JavaAtlas.Proofs.Syntax.LineEnds
import JavaAtlas.Proofs.SourceUnit.LineEnds
import JavaAtlas.Proofs.SourceUnit.Lines
import JavaAtlas.Proofs.SourceUnit.LineOrder
import JavaAtlas.Proofs.Syntax.Front
import JavaAtlas.Proofs.Syntax.LeadingLines
import JavaAtlas.Proofs.Extraction.Relined
import JavaAtlas.Proofs.SourceUnit.LeadingLines
import JavaAtlas.Proofs.Syntax.Answers
import JavaAtlas.Proofs.Syntax.Progress
import JavaAtlas.Proofs.Skeleton.Printing
import JavaAtlas.Proofs.Syntax.Foresight
import JavaAtlas.Proofs.Skeleton.Lowering
import JavaAtlas.Proofs.Skeleton.Reading
import JavaAtlas.Proofs.Skeleton.RoundTrip
import JavaAtlas.Proofs.Discovery.WalkOrder
import JavaAtlas.Proofs.Header.Canonical
import JavaAtlas.Proofs.Extraction.MemberOrder
import JavaAtlas.Proofs.Graph.Repetition
import JavaAtlas.Proofs.Schedule.Slots
import JavaAtlas.Proofs.SourceUnit.References
