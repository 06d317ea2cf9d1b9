import Rynor.Proofs.FsAmbiguity
import Rynor.Proofs.FsBuilder
import Rynor.Proofs.FsDecoder
import Rynor.Proofs.ProcRecycling
import Rynor.Proofs.ProcLeaks
import Rynor.Proofs.KeyboardStream
import Rynor.Proofs.SchedFairness
import Rynor.Proofs.PmmRuns
import Rynor.Proofs.ApicRuns
import Rynor.Proofs.ModuleOrder
import Rynor.Proofs.ShellForeground
import Rynor.Proofs.ShellLets
import Rynor.Proofs.ShellScript
import Rynor.Proofs.SpawnStaging
import Rynor.Proofs.PciBars
import Rynor.Proofs.PmmMap
import Rynor.Proofs.MsiWalk
