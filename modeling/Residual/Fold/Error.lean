import Residual.Operator
import Residual.Value.Basic

/-!
# Why a constant cannot be computed

Two values that cannot be compared are one kind of failure: partial evaluation turns it into the
type error. Every other failure leaves the expression as it is.

* `FoldError.message`: the text of a failure.
-/

namespace Residual

/-- The causes of failure. -/
inductive FoldError where
  /-- The values have no common order or equality. -/
  | notComparable (left right : Value)
  | unboundVariable (name : String)
  /-- A call that names no function. -/
  | missingIdentifier
  | unknownFunction (name : String)
  | argumentCount (name : String) (expected actual : Nat)
  /-- The operator has no meaning on values of these kinds. -/
  | invalidOperands (operator : String) (operands : List Value)
  | divisionByZero
  /-- The exact result is out of the range of 64-bit integers. -/
  | integerOverflow (op : Operator) (left right : Value)
  /-- The datatype of a typed term is neither an IRI nor a string. -/
  | invalidDatatype (datatype : Value)
  /-- A failure of another evaluator of constants, in its own words. -/
  | other (message : String)
  deriving DecidableEq

namespace FoldError

def isNotComparable : FoldError → Bool
  | notComparable _ _ => true
  | _ => false

def message : FoldError → String
  | notComparable l r => "Values not comparable: " ++ l.text ++ " and " ++ r.text
  | unboundVariable x => "Unbound variable ?" ++ x
  | missingIdentifier => "Cannot evaluate a call without function identifier"
  | unknownFunction f => "Unknown function: " ++ f
  | argumentCount f expected actual =>
    "Function " ++ f ++ " expects " ++ toString expected ++ " arguments, got " ++ toString actual
  | invalidOperands op vs =>
    "Invalid operand types for operator " ++ op ++ ": " ++ ", ".intercalate (vs.map Value.text)
  | divisionByZero => "Division by zero"
  | integerOverflow op l r => "Integer overflow in " ++ l.text ++ " " ++ op.name ++ " " ++ r.text
  | invalidDatatype v => "Datatype of a typed term must be an IRI, got " ++ v.text
  | other m => m

end FoldError

end Residual
