import Residual.Text.Ranges

/-!
# White space

Lexical forms of numbers and truth values may be surrounded by white space, by which the property
White_Space of Unicode is meant.

* `trim`: a text without the white space at its ends.
-/

namespace Residual.Text

/-- The characters of the property White_Space. -/
def blankRanges : List (Nat × Nat) :=
  [(0x0009, 0x000D), (0x0020, 0x0020), (0x0085, 0x0085), (0x00A0, 0x00A0), (0x1680, 0x1680),
   (0x2000, 0x200A), (0x2028, 0x2029), (0x202F, 0x202F), (0x205F, 0x205F), (0x3000, 0x3000)]

def isBlank (c : Char) : Bool := inRanges blankRanges c

/-- Drops the white space at the front. -/
def trimLeft (cs : List Char) : List Char := cs.dropWhile isBlank

/-- Drops the white space at the back. -/
def trimRight (cs : List Char) : List Char := (trimLeft cs.reverse).reverse

/-- Drops the white space at both ends. -/
def trim (cs : List Char) : List Char := trimRight (trimLeft cs)

end Residual.Text
