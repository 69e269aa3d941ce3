/-!
# Tables of characters

A property of characters is given by the ranges of code points that have it, and a mapping of
characters by runs that are moved by one distance.

* `inRanges`: membership in a table of ranges.
* `Shift`, `shifted`: a character moved by the first run that holds it, itself if none does.
-/

namespace Residual.Text

/-- Whether a character lies in one of the ranges, both ends included. -/
def inRanges (ranges : List (Nat × Nat)) (c : Char) : Bool :=
  ranges.any fun r => r.1 ≤ c.toNat && c.toNat ≤ r.2

/-- The characters `first`, `first + stride`, … up to `last`, each moved by `distance`. -/
structure Shift where
  first : Nat
  last : Nat
  stride : Nat
  distance : Int
  deriving Repr, DecidableEq

/-- Whether a run moves the character. -/
def Shift.covers (s : Shift) (c : Char) : Bool :=
  s.first ≤ c.toNat && c.toNat ≤ s.last && (c.toNat - s.first) % s.stride == 0

/-- The character at the run's distance. -/
def Shift.move (s : Shift) (c : Char) : Char :=
  Char.ofNat (c.toNat + s.distance).toNat

/-- The character that a table of runs puts in place of `c`. -/
def shifted (shifts : List Shift) (c : Char) : Char :=
  match shifts.find? (·.covers c) with
  | some s => s.move c
  | none => c

end Residual.Text
