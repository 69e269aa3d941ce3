import Residual.Fold.Constant

/-!
# Evaluation with its reads checked

An operator takes its operands out of a list by their positions, each when it is needed. That there
are enough of them is seen to before they are evaluated, by another table. Arithmetic is one
function of the operator, although only four operators calculate. Here the evaluation of constants
is written out to this detail. It ends with a fault where an operand is not there, or where an
operator does not calculate; a fault is not reported as a failure, but ends the whole evaluation.

* `Fault`, `Checked`: faults, and computations that may come to one.
* `Operator.applyChecked`: an operator on operands that it reads by position.
* `evaluateChecked`: the value of an expression, or a fault.
-/

namespace Residual

/-- What an evaluation must never come to. -/
inductive Fault where
  /-- An operator reads past the end of a list of `count` operands. -/
  | missingOperand (op : Operator) (position count : Nat)
  /-- Numbers are handed to an operator that does not calculate. -/
  | notArithmetic (op : Operator)
  deriving DecidableEq

/-- A computation that ends with a result or a failure, or with a fault. -/
abbrev Checked (α : Type) : Type := ExceptT FoldError (Except Fault) α

namespace Checked

variable {α : Type}

/-- Ends with a fault. -/
def fault (f : Fault) : Checked α := ExceptT.mk (.error f)

/-- A computation without faults. -/
def of (x : Except FoldError α) : Checked α := ExceptT.mk (.ok x)

end Checked

open Checked

namespace Operator

/-- The operand at a position. -/
def operandAt (op : Operator) (vs : List Value) (position : Nat) : Checked Value :=
  match vs[position]? with
  | some v => pure v
  | none => fault (.missingOperand op position vs.length)

/-- Whether the texts of the first two operands are related. The second is read only if the first
has a text. -/
def relationChecked (op : Operator) (holds : List Char → List Char → Bool) (vs : List Value) :
    Checked Value := do
  let s ← of (Fold.textOf op (← op.operandAt vs 0))
  let t ← of (Fold.textOf op (← op.operandAt vs 1))
  return .boolean (holds s.toList t.toList)

/-- Arithmetic. It looks at the operands first, and at the operator only if both are numbers. -/
def calculateChecked (op : Operator) (l r : Value) : Checked Value :=
  if l.numeric?.isNone || r.numeric?.isNone then throw (.invalidOperands op.name [l, r])
  else
    match op with
    | add => of (Fold.sum l r)
    | sub => of (Fold.difference l r)
    | mul => of (Fold.product l r)
    | div => of (Fold.quotient l r)
    | _ => fault (.notArithmetic op)

/-- The value of an operator on operands that are not the type error. It reads those that it
needs. -/
def applyChecked (op : Operator) (vs : List Value) : Checked Value :=
  match op with
  | eq => do of (Fold.equality id (← op.operandAt vs 0) (← op.operandAt vs 1))
  | ne => do of (Fold.equality (!·) (← op.operandAt vs 0) (← op.operandAt vs 1))
  | lt => do of (Fold.ordering (·.isLT) (← op.operandAt vs 0) (← op.operandAt vs 1))
  | le => do of (Fold.ordering (·.isLE) (← op.operandAt vs 0) (← op.operandAt vs 1))
  | gt => do of (Fold.ordering (·.isGT) (← op.operandAt vs 0) (← op.operandAt vs 1))
  | ge => do of (Fold.ordering (·.isGE) (← op.operandAt vs 0) (← op.operandAt vs 1))
  | and => do
    if ← of (Fold.truth op (← op.operandAt vs 0)) then
      return .boolean (← of (Fold.truth op (← op.operandAt vs 1)))
    else return .boolean false
  | or => do
    if ← of (Fold.truth op (← op.operandAt vs 0)) then return .boolean true
    else return .boolean (← of (Fold.truth op (← op.operandAt vs 1)))
  | not => do return .boolean (!(← of (Fold.truth op (← op.operandAt vs 0))))
  | add | sub | mul | div => do op.calculateChecked (← op.operandAt vs 0) (← op.operandAt vs 1)
  | str => do return .string (← op.operandAt vs 0).lexicalForm
  | lang => do
    match (← op.operandAt vs 0).lang? with
    | some tag => return .string tag
    | none => throw (.invalidOperands op.name vs)
  | datatype => do
    match (← op.operandAt vs 0).datatype? with
    | some name => return .iri name
    | none => throw (.invalidOperands op.name vs)
  | isIri => do return .boolean (← op.operandAt vs 0).isIri
  | isLiteral => do return .boolean (← op.operandAt vs 0).isLiteral
  | concat => of (Fold.concatenation vs)
  | strLen => do of (Fold.length (← op.operandAt vs 0))
  | uCase => do of (Fold.mapText op Text.upper (← op.operandAt vs 0))
  | lCase => do of (Fold.mapText op Text.lower (← op.operandAt vs 0))
  | contains => op.relationChecked (fun s t => Text.occursIn t s) vs
  | strStarts => op.relationChecked (fun s t => t.isPrefixOf s) vs
  | strEnds => op.relationChecked (fun s t => t.isSuffixOf s) vs

end Operator

mutual

/-- The value of an expression, in which no variable may occur. -/
def evaluateChecked : Expr → Checked Value
  | .const v => pure v
  | .var x => throw (.unboundVariable x)
  | .call name args => do
    let op ← of (Operator.ofCall name args.length)
    let vs ← evaluateAllChecked args
    if vs.any (·.isTypeError) then return .typeError else op.applyChecked vs
  | .term l d => do
    let lexical ← evaluateChecked l
    of (termValue lexical (← evaluateChecked d))

/-- The values of a list of expressions, up to the first failure or fault. -/
def evaluateAllChecked : List Expr → Checked (List Value)
  | [] => pure []
  | e :: es => do
    let v ← evaluateChecked e
    return v :: (← evaluateAllChecked es)

end

end Residual
