import Residual.Decimal.Layout

/-!
# JSON values

A value as its text writes it. Numbers keep their spelling, since formats differ in what they take
for an integer. The text of a string is a sequence of code points in which surrogates may occur,
because an escape can write one; it is a proper text if they form pairs.

* `Json.characters?`: the characters of a string, if its surrogates form pairs.
* `Json.ofString`, `Json.ofInt64`, `Json.ofDouble`: values for scalars.
-/

namespace Residual

/-- A JSON value. Members of an object keep their order, and names may recur. -/
inductive Json where
  | null
  | bool (b : Bool)
  | number (n : Decimal.Numeral)
  | string (points : List Nat)
  | array (items : List Json)
  | object (members : List (List Nat × Json))

namespace Json

open Residual.Decimal

instance : Inhabited Json := ⟨null⟩

/-! ## Strings -/

def isHighSurrogate (p : Nat) : Bool := 0xD800 ≤ p && p < 0xDC00

def isLowSurrogate (p : Nat) : Bool := 0xDC00 ≤ p && p < 0xE000

/-- The code point that a pair of surrogates stands for. -/
def joinSurrogates (high low : Nat) : Nat := 0x10000 + (high - 0xD800) * 0x400 + (low - 0xDC00)

/-- The characters of a sequence of code points. Pairs of surrogates are joined, and there is no
text if one is left over. -/
def characters? : List Nat → Option (List Char)
  | [] => some []
  | p :: ps =>
    if isHighSurrogate p then
      match ps with
      | q :: qs =>
        if isLowSurrogate q then (characters? qs).map (Char.ofNat (joinSurrogates p q) :: ·)
        else none
      | [] => none
    else if isLowSurrogate p then none
    else (characters? ps).map (Char.ofNat p :: ·)

/-- A sequence of code points as a text. -/
def text? (points : List Nat) : Option String := (characters? points).map String.ofList

def pointsOf (s : String) : List Nat := s.toList.map Char.toNat

/-! ## Scalars -/

def ofString (s : String) : Json := string (pointsOf s)

def ofInt (n : Int) : Json :=
  number { sign := if n < 0 then some .minus else none, whole := digits n.natAbs }

def ofInt64 (n : Int64) : Json := ofInt n.toInt

/-- Doubles are written with the fewest digits, with a power of ten from `10 ^ 16` on and below
`10 ^ (-5)`, and otherwise with at least one digit after the point. -/
def doubleLayout : Layout where
  tie := .toEven
  positional := some (-5, 16)
  wholeFrom := none

/-- There are no numerals for infinities and for what is no number. -/
def ofDouble (d : Float) : Json :=
  if d.isFinite then number (doubleLayout.numeral d) else null

/-- An object with members in the given order. -/
def record (members : List (String × Json)) : Json :=
  object (members.map fun m => (pointsOf m.1, m.2))

def bool? : Json → Option Bool
  | bool b => some b
  | _ => none

def string? : Json → Option String
  | string points => text? points
  | _ => none

/-- The integer that a number without point and power of ten writes. Minus zero is none. -/
def int? : Json → Option Int
  | number ⟨sign, whole, none, none⟩ =>
    let n := natural whole
    if sign = some .minus then if n = 0 then none else some (-n) else some n
  | _ => none

/-- The integer of a number in the range of 64-bit words. -/
def int64? (j : Json) : Option Int64 := j.int?.bind inInt64?

end Json

end Residual
