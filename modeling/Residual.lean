import Residual.Main
import Residual.CommandLine.Basic
import Residual.Evaluation.Summary
import Residual.Proofs.Depth
import Residual.Proofs.Binding
import Residual.Proofs.Equations
import Residual.Proofs.StandardRules
import Residual.Proofs.NormalForm
import Residual.Proofs.Position
import Residual.Proofs.Layout
import Residual.Proofs.JsonText
import Residual.Proofs.Concatenation
import Residual.Proofs.Staging
import Residual.Proofs.Meaning
import Residual.Proofs.StringForm
import Residual.Proofs.LateBinding
import Residual.Proofs.Agreement
import Residual.Proofs.Residue
import Residual.Proofs.DatatypeSlot
import Residual.Proofs.JsonForm
import Residual.Proofs.Exchange
import Residual.Proofs.Doubles
import Residual.Proofs.Nearest
import Residual.Proofs.Shortest
import Residual.Proofs.Calls
import Residual.Proofs.Termination
import Residual.Proofs.Dependence
import Residual.Proofs.Coherence
import Residual.Proofs.OrderLaws
import Residual.Proofs.ExactArithmetic
import Residual.Proofs.Causes
import Residual.Proofs.Propagation
import Residual.Proofs.Flattening
import Residual.Proofs.Variables
import Residual.Proofs.StringFunctions
import Residual.Proofs.Canonical
import Residual.Proofs.IntegerForms
import Residual.Proofs.DoubleForms
import Residual.Proofs.Literals
import Residual.Proofs.Connectives
import Residual.Proofs.Registration
import Residual.Proofs.EmptyNames
import Residual.Proofs.Weights
import Residual.Proofs.Attempts
import Residual.Proofs.Escapes
import Residual.Proofs.PrintedForm
import Residual.Proofs.Faults
import Residual.Proofs.Range
