import Residual.Text.Case
import Residual.Value.Numeric
import Residual.Fold.Error

/-!
# Comparison of values

Values with a number are compared by it. Otherwise only values of one kind are comparable; an IRI
is comparable with everything for equality, and equal to no literal.

* `Value.equal?`, `Value.order?`: the outcome of a comparison, if there is one.
* `Fold.equality`, `Fold.ordering`: comparisons as operators.
-/

namespace Residual

/-- Whether two values are equal, if they can be compared. -/
def Value.equal? (l r : Value) : Option Bool :=
  match l.numeric?, r.numeric? with
  | some a, some b => some (a.equal b)
  | _, _ =>
    match l, r with
    | .string a, .string b => some (a == b)
    | .boolean a, .boolean b => some (a == b)
    | .langString a s, .langString b t => some (a == b && s == t)
    | .iri a, .iri b => some (a == b)
    | .typed a s, .typed b t => if s = t then some (a == b) else none
    | .iri _, _ => some false
    | _, .iri _ => some false
    | _, _ => none

/-- The order of two values, if they have one. Strings are ordered by code points, and strings with
a language tag only under the same tag. -/
def Value.order? (l r : Value) : Option Ordering :=
  match l.numeric?, r.numeric? with
  | some a, some b => a.compare? b
  | _, _ =>
    match l, r with
    | .string a, .string b => some (compare a b)
    | .boolean a, .boolean b => some (compare a b)
    | .langString a s, .langString b t =>
      if Text.equalIgnoringAsciiCase s t then some (compare a b) else none
    | _, _ => none

namespace Fold

/-- A test of equality as an operator. -/
def equality (test : Bool → Bool) (l r : Value) : Except FoldError Value :=
  match l.equal? r with
  | some b => .ok (.boolean (test b))
  | none => .error (.notComparable l r)

/-- A test of order as an operator. -/
def ordering (test : Ordering → Bool) (l r : Value) : Except FoldError Value :=
  match l.order? r with
  | some o => .ok (.boolean (test o))
  | none => .error (.notComparable l r)

end Fold

end Residual
