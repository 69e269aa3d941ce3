import Residual.Json.Basic

/-!
# Numbers as doubles

JSON says how numbers are written, and leaves open how near the double of a number comes to it. The
reader that is used here is quick and not exact. It takes the digits as one word and multiplies it
by a power of ten, or divides it by one; the word, the power and the result are each rounded.

* `Json.NumberReader`: a way to take numbers as doubles.
* `Json.double?`: the double of a number.
* `Json.quickDouble?`: the double made of a word and a power of ten.
-/

namespace Residual.Json

open Residual.Decimal

/-- A way to take numbers as doubles. A number that is taken as none is refused. -/
class NumberReader where
  double? : Numeral → Option Float

/-- The double of a number. -/
def double? [reader : NumberReader] : Json → Option Float
  | number n => reader.double? n
  | _ => none

/-! ## Quick reading -/

/-- Appends digits to a number as long as it fits into a word of 64 bits. The second part are the
digits that are left over. -/
def appendDigits (n : Nat) : List Char → Nat × List Char
  | [] => (n, [])
  | c :: cs =>
    let m := 10 * n + digitValue c
    if m < twoTo 64 then appendDigits m cs else (n, c :: cs)

def powerOfTen (n : Nat) : Float := Float.ofScientific 1 false n

/-- A double times a power of ten. There are doubles for the powers up to the 308th; a number that
is smaller yet is divided several times. -/
def timesPowerOfTen? (f : Float) (e : Int) : Option Float :=
  if e.natAbs ≤ 308 then
    if 0 ≤ e then
      let product := f * powerOfTen e.natAbs
      if product.isInf then none else some product
    else some (f / powerOfTen e.natAbs)
  else if f == 0.0 then some f
  else if 0 ≤ e then none
  else timesPowerOfTen? (f / powerOfTen 308) (e + 308)
termination_by e.natAbs

/-- The double made of the digits that fit into a word. Digits left over only count for the power of
ten, and a number out of the range of doubles has none. -/
def quickDouble? (n : Numeral) : Option Float :=
  let (word, wholeLeft) := appendDigits 0 n.whole
  let (word, fractionLeft) := appendDigits word (n.fraction.getD [])
  let scale := n.scale + wholeLeft.length + fractionLeft.length
  (timesPowerOfTen? word.toUInt64.toFloat scale).map fun f => if n.sign = some .minus then -f else f

instance : NumberReader := ⟨quickDouble?⟩

end Residual.Json
