import Microcode.Command.Workspace
import Microcode.Listing.Layout
import Microcode.Main
import Microcode.Rendering.Sink
import Microcode.Proofs.Corruption
import Microcode.Proofs.Delivery
import Microcode.Proofs.Identity
import Microcode.Proofs.Interruption
import Microcode.Proofs.Joining
import Microcode.Proofs.Refinement
import Microcode.Proofs.Reports
import Microcode.Proofs.Renderings
import Microcode.Proofs.Acceptance
import Microcode.Proofs.Storage
import Microcode.Proofs.Tiling
import Microcode.Proofs.LetterCase
import Microcode.Proofs.Inversions
import Microcode.Proofs.Locality
import Microcode.Proofs.Columns
import Microcode.Proofs.LineEnds
import Microcode.Proofs.Leftmost
import Microcode.Proofs.Truncation
import Microcode.Proofs.Versions
import Microcode.Proofs.Writing
import Microcode.Proofs.Filling
import Microcode.Proofs.Occurrences
import Microcode.Proofs.Scanning
import Microcode.Proofs.TwosComplement
import Microcode.Proofs.GuardedRun
