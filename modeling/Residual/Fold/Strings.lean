import Residual.Text.Case
import Residual.Text.Search
import Residual.Fold.Error

/-!
# Functions on strings

They take strings with or without a language tag, and look only at the text. Concatenation keeps a
tag that all its operands share.

* `Fold.concatenation`: the texts one after the other, gathered with the tag of the first operand.
* `Fold.length`: the number of characters.
* `Fold.mapText`, `Fold.relation`: a text changed, and two texts compared.
-/

namespace Residual

/-- The language tag of a string that has one. -/
def Value.tag? : Value → Option String
  | .langString _ tag => some tag
  | _ => none

/-- A string with or without a tag. -/
def Value.ofText (s : String) : Option String → Value
  | some tag => .langString s tag
  | none => .string s

namespace Fold

/-- The text of an operand. -/
def textOf (op : Operator) (v : Value) : Except FoldError String :=
  match v.string? with
  | some s => .ok s
  | none => .error (.invalidOperands op.name [v])

/-- What a concatenation has gathered from the operands before a position. -/
structure Gathered where
  text : String := ""
  /-- The language tag of the first operand. -/
  tag? : Option String := none
  /-- No operand had another tag than the first. -/
  sameTag : Bool := true

namespace Gathered

/-- Takes in the text and the tag of the operand at a position. -/
def push (g : Gathered) (position : Nat) (s : String) (tag? : Option String) : Gathered :=
  let text := g.text ++ s
  if position = 0 then { g with text, tag? }
  else if g.tag? = tag? then { g with text }
  else { g with text, sameTag := false }

/-- Takes in the operands from a position on, up to the first that is no string. -/
def pushAll (g : Gathered) (position : Nat) : List Value → Except FoldError Gathered
  | [] => return g
  | v :: vs => do
    let s ← textOf .concat v
    (g.push position s v.tag?).pushAll (position + 1) vs

def value (g : Gathered) : Value :=
  match g.tag? with
  | some tag => if g.sameTag then .langString g.text tag else .string g.text
  | none => .string g.text

end Gathered

def concatenation (vs : List Value) : Except FoldError Value := do
  return (← Gathered.pushAll {} 0 vs).value

def length (v : Value) : Except FoldError Value := do
  let s ← textOf .strLen v
  return .integer (Int64.ofNat s.length)

/-- Changes the text of a string and keeps its tag. -/
def mapText (op : Operator) (f : List Char → List Char) (v : Value) : Except FoldError Value := do
  let s ← textOf op v
  return Value.ofText (String.ofList (f s.toList)) v.tag?

/-- Whether the texts of two strings are related. -/
def relation (op : Operator) (holds : List Char → List Char → Bool) (l r : Value) :
    Except FoldError Value := do
  let s ← textOf op l
  let t ← textOf op r
  return .boolean (holds s.toList t.toList)

end Fold

end Residual
