import Residual.Decimal.Digits

/-!
# The fewest digits that denote a double

A finite double is `m · 2 ^ q`. The numbers that round to it form an interval, from halfway to the
double below to halfway to the double above; its ends belong to it if `m` is even. Among the
decimals in that interval those with the fewest digits are taken, and of these the nearest one.

* `Binary.denotedBy`: membership in the interval, by exact comparison of natural numbers.
* `Binary.shortest`: the decimal chosen.
-/

namespace Residual.Decimal

/-- The value `significand · 2 ^ exponent` of a finite double that is not negative. -/
structure Binary where
  significand : Nat
  exponent : Int
  /-- The gap to the double below is half as wide as the gap to the one above. -/
  narrowBelow : Bool
  deriving Repr, DecidableEq

/-- The decimal `digits · 10 ^ exponent`. -/
structure Scaled where
  digits : Nat
  exponent : Int
  deriving Repr, DecidableEq

/-- Which of two equally near decimals is taken. -/
inductive Tie where
  | up
  | toEven
  deriving Repr, DecidableEq

namespace Binary

/-- The magnitude of the finite double with these bits. -/
def ofBits (bits : UInt64) : Binary :=
  let exponent := ((bits >>> 52) &&& 0x7FF).toNat
  let fraction := (bits &&& 0xFFFFFFFFFFFFF).toNat
  if exponent = 0 then ⟨fraction, -1074, false⟩
  else ⟨twoTo 52 + fraction, (exponent : Int) - 1075, fraction = 0 ∧ exponent > 1⟩

/-! ## Comparison with a grid of decimals

On the grid of the multiples of `10 ^ g` a significand `s` stands at `s · unit g / base g`. -/

def unit (x : Binary) (g : Int) : Nat := twoTo x.exponent.toNat * tenTo (-g).toNat

def base (x : Binary) (g : Int) : Nat := twoTo (-x.exponent).toNat * tenTo g.toNat

/-- The last point of the grid that is not above the value. -/
def gridFloor (x : Binary) (g : Int) : Nat := x.significand * x.unit g / x.base g

/-- Whether the decimal `d · 10 ^ g` rounds to the value. -/
def denotedBy (x : Binary) (g : Int) (d : Nat) : Bool :=
  let below := (4 * x.significand - if x.narrowBelow then 1 else 2) * x.unit g
  let above := (4 * x.significand + 2) * x.unit g
  let point := 4 * d * x.base g
  (below < point && point < above)
    || (x.significand % 2 == 0 && (point == below || point == above))

/-- The nearer of the grid's points `d` and `d + 1`, between which the value lies. -/
def nearer (x : Binary) (tie : Tie) (g : Int) (d : Nat) : Nat :=
  match compare (2 * x.significand * x.unit g) ((2 * d + 1) * x.base g) with
  | .lt => d
  | .gt => d + 1
  | .eq => match tie with
    | .up => d + 1
    | .toEven => d + d % 2

/-- The point of the grid of `10 ^ g` that denotes the value, if there is one. -/
def onGrid? (x : Binary) (tie : Tie) (g : Int) : Option Nat :=
  let d := x.gridFloor g
  match x.denotedBy g d, x.denotedBy g (d + 1) with
  | true, true => some (x.nearer tie g d)
  | true, false => some d
  | false, true => some (d + 1)
  | false, false => none

/-! ## The choice -/

/-- The number of digits before the point: the least `k` with the value below `10 ^ k`. It is
found next to an estimate from the position of the highest bit. -/
def magnitude (x : Binary) : Int :=
  let low := ((x.significand.log2 : Int) + x.exponent) * 30103 / 100000
  ([low, low + 1].find? fun k => x.gridFloor k == 0).getD (low + 2)

/-- Moves trailing zeros of the digits into the exponent. -/
def strip : (fuel : Nat) → Scaled → Scaled
  | 0, s => s
  | fuel + 1, s =>
    if s.digits % 10 = 0 then strip fuel ⟨s.digits / 10, s.exponent + 1⟩ else s

/-- The decimal with the fewest digits that denotes the value, the nearest of these. Seventeen
digits are always enough; zero has the digit zero. -/
def shortest (x : Binary) (tie : Tie) : Scaled :=
  if x.significand = 0 then ⟨0, 0⟩
  else
    let top := x.magnitude
    let found := (List.range 17).findSome? fun n =>
      let g := top - (n + 1 : Nat)
      (x.onGrid? tie g).map fun d => strip 17 ⟨d, g⟩
    found.getD ⟨x.significand * twoTo x.exponent.toNat, 0⟩

end Binary

end Residual.Decimal
