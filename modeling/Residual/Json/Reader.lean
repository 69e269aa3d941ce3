import Residual.Json.Token

/-!
# Reading JSON

The tokens are read from left to right. The containers around the position are kept on a stack, so
that nesting has no limit here; formats set their own.

* `Json.step`: what a token does.
* `Json.read?`: the value of a text, which must hold nothing else.
-/

namespace Residual.Json

/-- A container around the position, with its earlier contents in reverse. -/
inductive Frame where
  | item (earlier : List Json)
  | member (earlier : List (List Nat × Json)) (name : List Nat)

/-- What has to come next. -/
inductive Expected where
  | value
  | itemOrEnd
  | memberOrEnd
  | member (earlier : List (List Nat × Json))
  | colon (earlier : List (List Nat × Json)) (name : List Nat)
  /-- A value is complete. Its surroundings say what may follow. -/
  | afterValue (value : Json)

/-- Begins a value. -/
def beginValue (stack : List Frame) : Token → Option (Expected × List Frame)
  | .beginArray => some (.itemOrEnd, stack)
  | .beginObject => some (.memberOrEnd, stack)
  | .null => some (.afterValue null, stack)
  | .bool b => some (.afterValue (bool b), stack)
  | .number n => some (.afterValue (number n), stack)
  | .string points => some (.afterValue (string points), stack)
  | _ => none

/-- Takes in a token, if it may come here. -/
def step (expected : Expected) (stack : List Frame) (t : Token) :
    Option (Expected × List Frame) :=
  match expected, stack, t with
  | .value, stack, t => beginValue stack t
  | .itemOrEnd, stack, .endArray => some (.afterValue (array []), stack)
  | .itemOrEnd, stack, t => beginValue (.item [] :: stack) t
  | .memberOrEnd, stack, .endObject => some (.afterValue (object []), stack)
  | .memberOrEnd, stack, .string name => some (.colon [] name, stack)
  | .member earlier, stack, .string name => some (.colon earlier name, stack)
  | .colon earlier name, stack, .colon => some (.value, .member earlier name :: stack)
  | .afterValue v, .item earlier :: stack, .comma => some (.value, .item (v :: earlier) :: stack)
  | .afterValue v, .item earlier :: stack, .endArray =>
    some (.afterValue (array (v :: earlier).reverse), stack)
  | .afterValue v, .member earlier name :: stack, .comma =>
    some (.member ((name, v) :: earlier), stack)
  | .afterValue v, .member earlier name :: stack, .endObject =>
    some (.afterValue (object ((name, v) :: earlier).reverse), stack)
  | _, _, _ => none

/-- Takes in tokens one after the other. -/
def steps (expected : Expected) (stack : List Frame) : List Token → Option (Expected × List Frame)
  | [] => some (expected, stack)
  | t :: ts =>
    match step expected stack t with
    | some (expected, stack) => steps expected stack ts
    | none => none

/-- The value that a sequence of tokens writes. -/
def ofTokens? (ts : List Token) : Option Json :=
  match steps .value [] ts with
  | some (.afterValue v, []) => some v
  | _ => none

/-- The value that a text writes. -/
def read? (s : String) : Option Json := (Token.scan s.toList).bind ofTokens?

end Residual.Json
