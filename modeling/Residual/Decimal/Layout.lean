import Residual.Decimal.Numeral
import Residual.Decimal.Shortest

/-!
# How the digits of a double are laid out

Two formats write doubles with the fewest digits that denote them. They differ in a few decisions,
which a `Layout` records.

* `Layout.numeral`: the numeral of a finite double in a layout.
-/

namespace Residual.Decimal

/-- The decisions of a format. The exponent of a number is that of its first digit. -/
structure Layout where
  /-- Which of two equally near shortest decimals is taken. -/
  tie : Tie
  /-- The exponents, from the first to below the second, that are written without a power of ten;
  `none` stands for all. -/
  positional : Option (Int × Int)
  /-- The exponent from which integral numbers are written without a point; `none` stands for
  never. -/
  wholeFrom : Option Int

namespace Layout

def isPositional (l : Layout) (e : Int) : Bool :=
  match l.positional with
  | none => true
  | some (first, bound) => first ≤ e && e < bound

def isWhole (l : Layout) (e : Int) : Bool :=
  match l.wholeFrom with
  | none => false
  | some first => first ≤ e

/-- A decimal with its point in place. -/
def positionalNumeral (l : Layout) (sign : Option Sign) (s : Scaled) : Numeral :=
  let ds := digits s.digits
  let point := s.exponent + ds.length
  if 0 ≤ s.exponent then
    { sign, whole := ds ++ List.replicate s.exponent.toNat '0'
      fraction := if l.isWhole (point - 1) then none else some ['0'] }
  else if 0 < point then
    { sign, whole := ds.take point.toNat, fraction := some (ds.drop point.toNat) }
  else
    { sign, whole := ['0'], fraction := some (List.replicate (-point).toNat '0' ++ ds) }

/-- A decimal with one digit before the point and a signed power of ten. -/
def exponentNumeral (sign : Option Sign) (s : Scaled) : Numeral :=
  let ds := digits s.digits
  let e := s.exponent + ds.length - 1
  { sign, whole := ds.take 1
    fraction := if ds.length = 1 then none else some (ds.drop 1)
    exponent := some (some (if e < 0 then .minus else .plus), digits e.natAbs) }

/-- The numeral of a finite double. -/
def numeral (l : Layout) (d : Float) : Numeral :=
  let sign := if d.toBits >>> 63 = 1 then some Sign.minus else none
  let s := (Binary.ofBits d.toBits).shortest l.tie
  if l.isPositional (s.exponent + (digits s.digits).length - 1) then l.positionalNumeral sign s
  else exponentNumeral sign s

end Layout

end Residual.Decimal
