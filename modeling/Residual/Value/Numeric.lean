import Residual.Value.Basic

/-!
# Numbers among the values

Integers, doubles and the literals of the other numeric datatypes have a number, by which they are
compared and calculated with. Two integers are compared exactly, an integer and a double as
doubles.

* `Value.numeric?`: the number of a value.
* `Numeric.equal`, `Numeric.compare?`: equality and order of numbers.
-/

namespace Residual

/-- An exact integer or a double. -/
inductive Numeric where
  | integer (n : Int64)
  | double (d : Float)
  deriving DecidableEq

namespace Numeric

def isInteger : Numeric → Bool
  | integer _ => true
  | double _ => false

/-- The nearest double. -/
def toFloat : Numeric → Float
  | integer n => Float.ofInt n.toInt
  | double d => d

def equal : Numeric → Numeric → Bool
  | integer a, integer b => a == b
  | a, b => a.toFloat == b.toFloat

/-- The order of two doubles; there is none if one of them is no number. -/
def compareFloat? (a b : Float) : Option Ordering :=
  if a < b then some .lt
  else if a == b then some .eq
  else if b < a then some .gt
  else none

def compare? : Numeric → Numeric → Option Ordering
  | integer a, integer b => some (compare a.toInt b.toInt)
  | a, b => compareFloat? a.toFloat b.toFloat

/-- The literal of a number. -/
def toValue : Numeric → Value
  | integer n => .integer n
  | double d => .double d

end Numeric

/-- The number of a value, if it is a literal of a numeric datatype with a well-formed text. -/
def Value.numeric? : Value → Option Numeric
  | .integer n => some (.integer n)
  | .double d => some (.double d)
  | .typed lexical datatype =>
    if datatype ∈ Xsd.integral then (Lexical.integer? lexical).map .integer
    else if datatype ∈ Xsd.fractional then (Lexical.double? lexical).map .double
    else none
  | _ => none

end Residual
