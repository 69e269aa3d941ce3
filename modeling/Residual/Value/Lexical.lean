import Residual.Text.Blank
import Residual.Decimal.Layout

/-!
# Lexical forms

The texts that write truth values, integers and doubles. White space around them is ignored when
they are read.

* `boolean?`, `integer?`, `double?`: the value of a text.
* `ofBoolean`, `ofInteger`, `ofDouble`: the text of a value.
-/

namespace Residual.Lexical

open Residual.Decimal

/-! ## Reading -/

def boolean? (s : String) : Option Bool :=
  let cs := Text.trim s.toList
  if cs = ['t', 'r', 'u', 'e'] ∨ cs = ['1'] then some true
  else if cs = ['f', 'a', 'l', 's', 'e'] ∨ cs = ['0'] then some false
  else none

def integer? (s : String) : Option Int64 := int64? (Text.trim s.toList)

/-- The names of infinity and of the value that is no number, in lower case. -/
def special? (word : List Char) : Option Float :=
  if word = ['i', 'n', 'f'] ∨ word = ['i', 'n', 'f', 'i', 'n', 'i', 't', 'y'] then
    some (1.0 / 0.0)
  else if word = ['n', 'a', 'n'] then some (0.0 / 0.0)
  else none

/-- A double: a decimal numeral with at least one digit before its power of ten, or after an
optional sign one of the special names in any case of letters. -/
def double? (s : String) : Option Float :=
  let cs := Text.trim s.toList
  let (sign, word) := Numeral.takeSign cs
  match special? (word.map Char.toLower) with
  | some d => some (if sign = some .minus then -d else d)
  | none =>
    match Numeral.read? cs with
    | some n => if n.significant = [] then none else some n.toFloat
    | none => none

/-! ## Writing -/

def ofBoolean (b : Bool) : String := if b then "true" else "false"

def ofInteger (n : Int64) : String := String.ofList (integerText n.toInt)

/-- Doubles are written without a power of ten, and integral ones below `10 ^ 15` with one digit
after the point. -/
def doubleLayout : Layout where
  tie := .up
  positional := none
  wholeFrom := some 15

def ofDouble (d : Float) : String :=
  if d.isNaN then "NaN"
  else if d.isFinite then String.ofList (doubleLayout.numeral d).render
  else if d < 0.0 then "-INF"
  else "INF"

end Residual.Lexical
