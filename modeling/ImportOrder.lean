import ImportOrder.Fixing
import ImportOrder.Main
import ImportOrder.Proofs.Fixing
import ImportOrder.Proofs.LineEnds
import ImportOrder.Proofs.Run.FixedPoint
import ImportOrder.Proofs.Run.Resumption
import ImportOrder.Proofs.Text.Edits
import ImportOrder.Proofs.Rule.Reports
import ImportOrder.Proofs.Run.Hashbang
import ImportOrder.Proofs.Run.Phases
import ImportOrder.Proofs.Text.Lines
import ImportOrder.Proofs.Interspace
import ImportOrder.Proofs.Rule.BlankLines
import ImportOrder.Proofs.Run.Spacing
import ImportOrder.Proofs.Manifest.Cache
import ImportOrder.Proofs.Project.FileReport
import ImportOrder.Proofs.Source.Offsets
import ImportOrder.Proofs.Rule.Safety
import ImportOrder.Proofs.Splicing
import ImportOrder.Proofs.Attachment
import ImportOrder.Proofs.Project.Commands
import ImportOrder.Proofs.Merging
import ImportOrder.Proofs.Order.Nesting
import ImportOrder.Proofs.Rule.Descents
import ImportOrder.Proofs.Rule.UnsortedRuns
import ImportOrder.Proofs.Rule.UntouchedLines
import ImportOrder.Proofs.Rule.SeparateFixes
import ImportOrder.Proofs.Text.Positions
import ImportOrder.Proofs.Source.SideEffects
import ImportOrder.Proofs.Project.RelativePath
import ImportOrder.Proofs.Source.ProbeSteps
import ImportOrder.Proofs.Project.Resolution
