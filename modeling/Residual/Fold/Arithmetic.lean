import Residual.Value.Numeric
import Residual.Fold.Error

/-!
# Arithmetic

Two integers are added, subtracted and multiplied exactly; a result out of the range of 64-bit
integers is a failure. All other numbers are calculated with as doubles, and so is every quotient.

* `Fold.calculate`: an operation given on integers and on doubles.
* `Fold.quotient`: division, which refuses the integer zero under an integer.
-/

namespace Residual.Fold

open Residual.Decimal

/-- An operation on numbers, exact on two integers. -/
def calculate (op : Operator) (exact : Int → Int → Int) (rounded : Float → Float → Float)
    (l r : Value) : Except FoldError Value :=
  match l.numeric?, r.numeric? with
  | some (.integer a), some (.integer b) =>
    match inInt64? (exact a.toInt b.toInt) with
    | some n => .ok (Numeric.integer n).toValue
    | none => .error (.integerOverflow op l r)
  | some a, some b => .ok (Numeric.double (rounded a.toFloat b.toFloat)).toValue
  | _, _ => .error (.invalidOperands op.name [l, r])

def sum : Value → Value → Except FoldError Value := calculate .add (· + ·) (· + ·)

def difference : Value → Value → Except FoldError Value := calculate .sub (· - ·) (· - ·)

def product : Value → Value → Except FoldError Value := calculate .mul (· * ·) (· * ·)

def quotient (l r : Value) : Except FoldError Value :=
  match l.numeric?, r.numeric? with
  | some a, some b =>
    if a.isInteger ∧ b = .integer 0 then .error .divisionByZero
    else .ok (Numeric.double (a.toFloat / b.toFloat)).toValue
  | _, _ => .error (.invalidOperands Operator.div.name [l, r])

end Residual.Fold
