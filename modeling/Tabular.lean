import Tabular.Catalog
import Tabular.Document.Table
import Tabular.Proofs.Archive.Accepted
import Tabular.Proofs.Archive.Relabelled
import Tabular.Proofs.Archive.Stream
import Tabular.Proofs.Archive.Unambiguous
import Tabular.Proofs.Attached
import Tabular.Proofs.BlockRows
import Tabular.Proofs.Cells.Blocks
import Tabular.Proofs.Cells.Interchange
import Tabular.Proofs.Cells.Overlap
import Tabular.Proofs.Cells.Unedited
import Tabular.Proofs.Copied
import Tabular.Proofs.InPlace.Requests
import Tabular.Proofs.Names
import Tabular.Proofs.Packed.LastWrite
import Tabular.Proofs.Packed.Unwrapped
import Tabular.Proofs.RecordLayout
import Tabular.Proofs.Rectangular
import Tabular.Proofs.Requirements
import Tabular.Proofs.Resize.Refitted
import Tabular.Proofs.Scalar.Cell
import Tabular.Proofs.Schema
import Tabular.Proofs.Sparse.Acceptance
import Tabular.Proofs.Sparse.AsDense
import Tabular.Proofs.Sparse.Block
import Tabular.Proofs.Sparse.Compressed
import Tabular.Proofs.Sparse.Insertion
import Tabular.Proofs.Sparse.Invariant
import Tabular.Proofs.Statistics.Slots
import Tabular.Proofs.Strided
import Tabular.Proofs.Unallocated
import Tabular.Proofs.Undisturbed
import Tabular.Proofs.Views
