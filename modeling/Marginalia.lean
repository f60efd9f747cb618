import Marginalia.Main
import Marginalia.Progress.Loop
import Marginalia.World
import Marginalia.Proofs.Comment.Position
import Marginalia.Proofs.Run.Batch
import Marginalia.Proofs.Run.Calls
import Marginalia.Proofs.Comment.NoteText
import Marginalia.Proofs.Report.Reading
import Marginalia.Proofs.Comment.LineEnding
import Marginalia.Proofs.Run.Verbose
import Marginalia.Proofs.Comment.PlainLines
import Marginalia.Proofs.Comment.Slice
import Marginalia.Proofs.Comment.TrailingBlank
import Marginalia.Proofs.Host.Course
import Marginalia.Proofs.Comment.Unambiguous
import Marginalia.Proofs.Report.Hook
import Marginalia.Proofs.Report.Partition
import Marginalia.Proofs.Report.Tally
import Marginalia.Proofs.Run.Tally
import Marginalia.Proofs.Comment.LongString
import Marginalia.Proofs.Comment.Separator
import Marginalia.Proofs.Settings.Document
import Marginalia.Proofs.Settings.Positional
import Marginalia.Proofs.Grammar.Registry
import Marginalia.Proofs.Path.Relative
import Marginalia.Proofs.Text.Utf8
import Marginalia.Proofs.Run.Bytes
import Marginalia.Proofs.Progress.Loop
import Marginalia.Proofs.Comment.Border
import Marginalia.Proofs.Comment.Checked
