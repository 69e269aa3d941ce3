/-!
# Runs of decimal digits

* `tenTo`, `twoTo`: powers of natural numbers.
* `natural`, `digits`: the number that a run of digits writes, and the digits of a number.
* `natural?`, `integer?`: a text that consists of digits, or of an optional sign and digits.
* `inInt64?`, `int64?`: an integer, or the text of one, in the range of 64-bit words.
-/

namespace Residual.Decimal

/-- The power of ten with the given exponent. -/
def tenTo (n : Nat) : Nat := Nat.pow 10 n

/-- The power of two with the given exponent. -/
def twoTo (n : Nat) : Nat := Nat.pow 2 n

/-- The number that a digit stands for. -/
def digitValue (c : Char) : Nat := c.toNat - '0'.toNat

/-- The number that a run of digits writes in base ten. -/
def natural (ds : List Char) : Nat := ds.foldl (fun n c => 10 * n + digitValue c) 0

/-- The digits of a number in base ten, without leading zeros. -/
def digits (n : Nat) : List Char := Nat.toDigits 10 n

/-- The decimal text of an integer, with a sign only if it is negative. -/
def integerText : Int → List Char
  | .ofNat n => digits n
  | .negSucc n => '-' :: digits (n + 1)

/-- The number written by a text of one or more digits. -/
def natural? (cs : List Char) : Option Nat :=
  if cs ≠ [] ∧ cs.all Char.isDigit then some (natural cs) else none

/-- The integer written by an optional sign and one or more digits. -/
def integer? : List Char → Option Int
  | '+' :: cs => (natural? cs).map Int.ofNat
  | '-' :: cs => (natural? cs).map fun n => -Int.ofNat n
  | cs => (natural? cs).map Int.ofNat

/-- An integer as a 64-bit word, if it is in range. -/
def inInt64? (n : Int) : Option Int64 :=
  if Int64.minValue.toInt ≤ n ∧ n ≤ Int64.maxValue.toInt then some (Int64.ofInt n) else none

/-- The 64-bit integer written by an optional sign and one or more digits. -/
def int64? (cs : List Char) : Option Int64 := (integer? cs).bind inInt64?

end Residual.Decimal
