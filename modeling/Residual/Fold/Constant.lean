import Residual.Expr.Basic
import Residual.Fold.Comparison
import Residual.Fold.Logic
import Residual.Fold.Arithmetic
import Residual.Fold.Strings

/-!
# The value of a ground expression

Operands are evaluated from left to right, and the first failure is that of the whole expression.
A call with too few or too many arguments fails before any of them is evaluated; the type error as
an operand makes the type error of a call.

* `Operator.apply`: an operator on values.
* `evaluateConstant`: the value of an expression without variables.
-/

namespace Residual

namespace Operator

/-- The value of an operator on operands that are not the type error. -/
def apply : Operator → List Value → Except FoldError Value
  | eq, [l, r] => Fold.equality id l r
  | ne, [l, r] => Fold.equality (!·) l r
  | lt, [l, r] => Fold.ordering (·.isLT) l r
  | le, [l, r] => Fold.ordering (·.isLE) l r
  | gt, [l, r] => Fold.ordering (·.isGT) l r
  | ge, [l, r] => Fold.ordering (·.isGE) l r
  | and, [l, r] => Fold.conjunction l r
  | or, [l, r] => Fold.disjunction l r
  | not, [v] => Fold.negation v
  | add, [l, r] => Fold.sum l r
  | sub, [l, r] => Fold.difference l r
  | mul, [l, r] => Fold.product l r
  | div, [l, r] => Fold.quotient l r
  | str, [v] => .ok (.string v.lexicalForm)
  | lang, [v] => match v.lang? with
    | some tag => .ok (.string tag)
    | none => .error (.invalidOperands lang.name [v])
  | datatype, [v] => match v.datatype? with
    | some name => .ok (.iri name)
    | none => .error (.invalidOperands datatype.name [v])
  | isIri, [v] => .ok (.boolean v.isIri)
  | isLiteral, [v] => .ok (.boolean v.isLiteral)
  | concat, vs => Fold.concatenation vs
  | strLen, [v] => Fold.length v
  | uCase, [v] => Fold.mapText uCase Text.upper v
  | lCase, [v] => Fold.mapText lCase Text.lower v
  | contains, [l, r] => Fold.relation contains (fun s t => Text.occursIn t s) l r
  | strStarts, [l, r] => Fold.relation strStarts (fun s t => t.isPrefixOf s) l r
  | strEnds, [l, r] => Fold.relation strEnds (fun s t => t.isSuffixOf s) l r
  | op, vs => .error (.argumentCount op.name (op.arity.getD 0) vs.length)

/-- The operator of a call with `count` arguments, if the name and the count are right. -/
def ofCall (name : Option String) (count : Nat) : Except FoldError Operator :=
  match Expr.identifierOf name with
  | none => .error .missingIdentifier
  | some f =>
    match ofName? f with
    | none => .error (.unknownFunction f)
    | some op =>
      match op.arity with
      | none => .ok op
      | some expected =>
        if count = expected then .ok op else .error (.argumentCount f expected count)

end Operator

/-- The value of a call of an operator. -/
def callValue (op : Operator) (vs : List Value) : Except FoldError Value :=
  if vs.any (·.isTypeError) then .ok .typeError else op.apply vs

/-- The literal that a typed term denotes. The datatype may be given as a string. -/
def termValue (lexical datatype : Value) : Except FoldError Value :=
  if lexical.isTypeError || datatype.isTypeError then .ok .typeError
  else
    match datatype with
    | .iri name => .ok (.ofLexical lexical.lexicalForm name)
    | .string name => .ok (.ofLexical lexical.lexicalForm name)
    | _ => .error (.invalidDatatype datatype)

mutual

/-- The value of an expression, in which no variable may occur. -/
def evaluateConstant : Expr → Except FoldError Value
  | .const v => .ok v
  | .var x => .error (.unboundVariable x)
  | .call name args => do
    let op ← Operator.ofCall name args.length
    callValue op (← evaluateConstants args)
  | .term l d => do
    let lexical ← evaluateConstant l
    termValue lexical (← evaluateConstant d)

/-- The values of a list of expressions, up to the first failure. -/
def evaluateConstants : List Expr → Except FoldError (List Value)
  | [] => .ok []
  | e :: es => do
    let v ← evaluateConstant e
    return v :: (← evaluateConstants es)

end

end Residual
