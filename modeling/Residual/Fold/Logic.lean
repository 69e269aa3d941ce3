import Residual.Value.Numeric
import Residual.Fold.Error

/-!
# Logical connectives

A value counts as true or false by its kind: a number if it differs from zero, a string if it is
not empty. The second operand of a connective is looked at only if the first does not decide.

* `Value.truth?`: the truth value of a value.
* `Fold.conjunction`, `Fold.disjunction`, `Fold.negation`: the connectives.
-/

namespace Residual

/-- Whether a value counts as true, if it counts as a truth value at all. -/
def Value.truth? (v : Value) : Option Bool :=
  match v.numeric? with
  | some n => some (!(n.toFloat == 0.0) && !n.toFloat.isNaN)
  | none =>
    match v with
    | .boolean b => some b
    | .string s => some (s ≠ "")
    | _ => none

namespace Fold

/-- The truth value of an operand. -/
def truth (op : Operator) (v : Value) : Except FoldError Bool :=
  match v.truth? with
  | some b => .ok b
  | none => .error (.invalidOperands op.name [v])

def conjunction (l r : Value) : Except FoldError Value := do
  if ← truth .and l then return .boolean (← truth .and r) else return .boolean false

def disjunction (l r : Value) : Except FoldError Value := do
  if ← truth .or l then return .boolean true else return .boolean (← truth .or r)

def negation (v : Value) : Except FoldError Value := do
  return .boolean (!(← truth .not v))

end Fold

end Residual
