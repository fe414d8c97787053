import PathQuery.Main
import PathQuery.Proofs.Call.Numbers
import PathQuery.Proofs.Eval.Beginnings
import PathQuery.Proofs.Eval.Comparison
import PathQuery.Proofs.Eval.Counting
import PathQuery.Proofs.Eval.Descendants
import PathQuery.Proofs.Eval.Fusion
import PathQuery.Proofs.Eval.Integers
import PathQuery.Proofs.Eval.KeyValues
import PathQuery.Proofs.Eval.LastElement
import PathQuery.Proofs.Eval.Propagation
import PathQuery.Proofs.Eval.Provenance
import PathQuery.Proofs.Eval.Refinement
import PathQuery.Proofs.Eval.Scoping
import PathQuery.Proofs.Eval.Selection
import PathQuery.Proofs.Eval.Subscripts
import PathQuery.Proofs.Eval.Substitution
import PathQuery.Proofs.Eval.Transitivity
import PathQuery.Proofs.Eval.Variables
import PathQuery.Proofs.Eval.Wrapping
import PathQuery.Proofs.Path.Controls
import PathQuery.Proofs.Path.Unambiguous
import PathQuery.Proofs.Path.WellFormed
import PathQuery.Proofs.Json.Conversion
import PathQuery.Proofs.Json.Numerals
import PathQuery.Proofs.Call.DeclaredTypes
import PathQuery.Proofs.CommandLine.Run
import PathQuery.Proofs.Sql.TypeName
