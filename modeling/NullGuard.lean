import NullGuard.Main
import NullGuard.Proofs.Annotations.Moving
import NullGuard.Proofs.ClassFile.Building
import NullGuard.Proofs.ClassFile.RoundTrip
import NullGuard.Proofs.Code.Displacement
import NullGuard.Proofs.Code.Rearranging
import NullGuard.Proofs.Code.Reencoding
import NullGuard.Proofs.Code.Unedited
import NullGuard.Proofs.Dispatcher.Lookups
import NullGuard.Proofs.Guard.Marked
import NullGuard.Proofs.Guard.Positions
import NullGuard.Proofs.Guard.References
import NullGuard.Proofs.Guard.Report
import NullGuard.Proofs.Run.Expansion
import NullGuard.Proofs.Run.Overwriting
import NullGuard.Proofs.Run.Rejection
import NullGuard.Proofs.Run.SecondRun
import NullGuard.Proofs.Text.Canonical
import NullGuard.Proofs.Code.Emission
import NullGuard.Proofs.Nullness.Scope
import NullGuard.Proofs.Run.Root
import NullGuard.Proofs.Run.Precedence
import NullGuard.Proofs.Files.Manifest
