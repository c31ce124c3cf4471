import RowDirectives.Proofs.Alignment
import RowDirectives.Proofs.Collapsing
import RowDirectives.Proofs.Commutation
import RowDirectives.Proofs.Compilation
import RowDirectives.Proofs.Concealment
import RowDirectives.Proofs.Configurations
import RowDirectives.Proofs.Declarations
import RowDirectives.Proofs.Dispatch
import RowDirectives.Proofs.Fusion
import RowDirectives.Proofs.Joining
import RowDirectives.Proofs.LosslessText
import RowDirectives.Proofs.MaskAlgebra
import RowDirectives.Proofs.NumericArguments
import RowDirectives.Proofs.Replay
import RowDirectives.Proofs.ScriptLines
import RowDirectives.Proofs.Shape
import RowDirectives.Proofs.StoredForms
