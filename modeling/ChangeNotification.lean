import ChangeNotification.Definition.Format
import ChangeNotification.Descriptor.Format
import ChangeNotification.Main
import ChangeNotification.MemberNames
import ChangeNotification.Project.Generation
import ChangeNotification.Project.Scaffold
import ChangeNotification.SourceBuffer.Session
import ChangeNotification.Proofs.Layout.Line
import ChangeNotification.Proofs.Layout.Nesting
import ChangeNotification.Proofs.Layout.Enclosure
import ChangeNotification.Proofs.Emission.Code
import ChangeNotification.Proofs.Emission.Run
import ChangeNotification.Proofs.Emission.UnitText
import ChangeNotification.Proofs.Emission.Nesting
import ChangeNotification.Proofs.Emission.References
import ChangeNotification.Proofs.Emission.MemberOrder
import ChangeNotification.Proofs.Emission.HintName
import ChangeNotification.Proofs.Emission.NameFamilies
import ChangeNotification.Proofs.Emission.Reports
import ChangeNotification.Proofs.Emission.WholeType
import ChangeNotification.Proofs.Emission.Cancellation
import ChangeNotification.Proofs.Emission.Equality
import ChangeNotification.Proofs.Symbol.Readability
import ChangeNotification.Proofs.Symbol.Levels
import ChangeNotification.Proofs.Symbol.ArrayRanks
import ChangeNotification.Proofs.Symbol.QualifiedName
import ChangeNotification.Proofs.Resolution.Subject
import ChangeNotification.Proofs.Resolution.AccessibilityLiteral
import ChangeNotification.Proofs.Emission.Nullability
import ChangeNotification.Proofs.Emission.Identifiers
import ChangeNotification.Proofs.Project.Grouping
import ChangeNotification.Proofs.Project.TypeUnits
import ChangeNotification.Proofs.Json.RoundTrip
import ChangeNotification.Proofs.Facts.Presentation
import ChangeNotification.Proofs.Project.Regeneration
import ChangeNotification.Proofs.Project.TargetOrder
import ChangeNotification.Proofs.Project.Isolation
import ChangeNotification.Proofs.Project.Summary
import ChangeNotification.Proofs.Layout.Bare
import ChangeNotification.Proofs.SourceBuffer.Lines
import ChangeNotification.Proofs.Text.Control
import ChangeNotification.Proofs.Emission.Characters
import ChangeNotification.Proofs.Emission.Layout
import ChangeNotification.Proofs.Layout.Levels
import ChangeNotification.Proofs.SupportSource.Indentation
import ChangeNotification.Proofs.Descriptor.LastWrites
import ChangeNotification.Proofs.Resolution.Role
import ChangeNotification.Proofs.Resolution.Arguments
import ChangeNotification.Proofs.Resolution.Steps
import ChangeNotification.Proofs.Resolution.Defects
import ChangeNotification.Proofs.Resolution.Members
import ChangeNotification.Proofs.Resolution.Recognition
import ChangeNotification.Proofs.SourceBuffer.Blocks
import ChangeNotification.Proofs.SourceBuffer.Reading
import ChangeNotification.Proofs.Json.Text
import ChangeNotification.Proofs.Project.NewDirectories
import ChangeNotification.Proofs.Project.Reception
import ChangeNotification.Proofs.Project.Scaffold
import ChangeNotification.Proofs.Project.FirstGeneration
import ChangeNotification.Proofs.Project.Establishment
import ChangeNotification.Proofs.Project.Persistence
