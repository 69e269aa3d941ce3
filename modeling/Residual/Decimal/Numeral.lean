import Residual.Decimal.Digits

/-!
# Decimal numerals as they are written

A numeral has a sign, digits before and after a point, and a power of ten, each of which but some
digits may be missing. Formats differ in what they admit; they share this type, its reader and the
double that a numeral denotes.

* `Numeral.read?`: the numeral of a text, in the widest form.
* `Numeral.render`: the text of a numeral.
* `Numeral.toFloat`: the nearest double, ties to even; too large a numeral is infinite.
-/

namespace Residual.Decimal

inductive Sign where
  | plus
  | minus
  deriving Repr, DecidableEq

def Sign.char : Sign → Char
  | .plus => '+'
  | .minus => '-'

/-- A numeral by its parts. A point without digits after it is an empty fraction. -/
structure Numeral where
  sign : Option Sign := none
  whole : List Char
  fraction : Option (List Char) := none
  exponent : Option (Option Sign × List Char) := none
  deriving Repr, DecidableEq

namespace Numeral

/-! ## Reading -/

/-- Splits off a sign. -/
def takeSign : List Char → Option Sign × List Char
  | '+' :: cs => (some .plus, cs)
  | '-' :: cs => (some .minus, cs)
  | cs => (none, cs)

/-- Splits off a run of digits, which may be empty. -/
def takeDigits (cs : List Char) : List Char × List Char :=
  (cs.takeWhile Char.isDigit, cs.dropWhile Char.isDigit)

/-- Splits off a point with the digits after it. -/
def takeFraction : List Char → Option (List Char) × List Char
  | '.' :: cs => ((takeDigits cs).1, (takeDigits cs).2)
  | cs => (none, cs)

/-- Reads what is left as a power of ten: nothing, or a mark, a sign and some digits. -/
def exponentOf? (cs : List Char) : Option (Option (Option Sign × List Char)) :=
  match cs with
  | [] => some none
  | mark :: cs =>
    let (sign, ds) := takeSign cs
    if (mark = 'e' ∨ mark = 'E') ∧ ds ≠ [] ∧ ds.all Char.isDigit then some (some (sign, ds))
    else none

/-- The numeral that a whole text writes. Digits may be missing before or after the point. -/
def read? (cs : List Char) : Option Numeral := do
  let (sign, cs) := takeSign cs
  let (whole, cs) := takeDigits cs
  let (fraction, cs) := takeFraction cs
  let exponent ← exponentOf? cs
  return { sign, whole, fraction, exponent }

/-! ## Writing -/

def render (n : Numeral) : List Char :=
  (n.sign.map Sign.char).toList ++ n.whole
    ++ (match n.fraction with
      | none => []
      | some ds => '.' :: ds)
    ++ (match n.exponent with
      | none => []
      | some (sign, ds) => 'e' :: ((sign.map Sign.char).toList ++ ds))

/-! ## The number denoted -/

/-- All digits of the numeral, those after the point included. -/
def significant (n : Numeral) : List Char := n.whole ++ n.fraction.getD []

/-- The power of ten by which `significant`, read as an integer, is multiplied. -/
def scale (n : Numeral) : Int :=
  let written : Int := match n.exponent with
    | none => 0
    | some (sign, ds) => if sign = some .minus then -(natural ds : Int) else natural ds
  written - (n.fraction.getD []).length

/-- The double nearest to a run of digits times a power of ten. A number from `10 ^ 400` on is
infinite and one below `10 ^ (-400)` zero, whatever its digits, so that no large power is
computed. -/
def magnitude (ds : List Char) (scale : Int) : Float :=
  let ds := ds.dropWhile (· = '0')
  let top := scale + ds.length
  if ds = [] ∨ top < -400 then 0.0
  else if top > 400 then 1.0 / 0.0
  else Float.ofScientific (natural ds) (scale < 0) scale.natAbs

def toFloat (n : Numeral) : Float :=
  let f := magnitude n.significant n.scale
  if n.sign = some .minus then -f else f

end Numeral

end Residual.Decimal
