import Residual.Text.CaseTable
import Residual.Text.CasedTable

/-!
# Upper and lower case

Texts are mapped character by character by the full case mappings, so that the result may be
longer: `ß` becomes `SS`. One mapping looks at its surroundings: a capital sigma that ends a word
becomes the final form `ς`.

* `upper`, `lower`: the two mappings.
* `equalIgnoringAsciiCase`: equality up to the case of ASCII letters, as for language tags.
-/

namespace Residual.Text

/-- The upper-case form of a character. -/
def upperChar (c : Char) : List Char :=
  match upperExpansions.lookup c.toNat with
  | some codes => codes.map Char.ofNat
  | none => [shifted upperShifts c]

/-- The lower-case form of a character that stands alone. Only `İ` has a longer one: a dot above
follows its `i`. -/
def lowerChar (c : Char) : List Char :=
  if c = 'İ' then ['i', '\u0307'] else [shifted lowerShifts c]

def isCased (c : Char) : Bool := inRanges casedRanges c

def isCaseIgnorable (c : Char) : Bool := inRanges caseIgnorableRanges c

/-- Whether the first character that is not case-ignorable exists and has a case. -/
def meetsCased (cs : List Char) : Bool :=
  match cs.dropWhile isCaseIgnorable with
  | [] => false
  | c :: _ => isCased c

def upper (cs : List Char) : List Char := cs.flatMap upperChar

/-- Lower case of a text that comes after the reversed text `before`. A capital sigma is final if
a cased character comes before it and none after it. -/
def lowerAfter (before : List Char) : List Char → List Char
  | [] => []
  | c :: cs =>
    let form :=
      if c = 'Σ' then
        if meetsCased before && !meetsCased cs then ['ς'] else ['σ']
      else lowerChar c
    form ++ lowerAfter (c :: before) cs

def lower (cs : List Char) : List Char := lowerAfter [] cs

/-- The lower-case form of an ASCII letter, any other character as it is. -/
def asciiLowerChar (c : Char) : Char :=
  if 'A' ≤ c ∧ c ≤ 'Z' then Char.ofNat (c.toNat + 32) else c

def equalIgnoringAsciiCase (a b : String) : Bool :=
  a.toList.map asciiLowerChar == b.toList.map asciiLowerChar

end Residual.Text
