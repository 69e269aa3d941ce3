import Residual.Value.Basic
import Residual.Json.Number
import Residual.Json.Record

/-!
# Values in JSON

A value is a variant named for its kind; the type error may also be written as the bare name.

* `Value.toJson`: the JSON form of a value.
* `Value.ofJson?`: the value of a JSON form, with a limit on the depth of its containers.
-/

namespace Residual.Value

/-- The JSON form of a value. A double that is not finite has no number there. -/
def toJson : Value → Json
  | boolean b => .record [("boolean", .bool b)]
  | integer n => .record [("integer", .ofInt64 n)]
  | double d => .record [("double", .ofDouble d)]
  | string s => .record [("string", .ofString s)]
  | langString s lang =>
    .record [("lang_string", .record [("value", .ofString s), ("lang", .ofString lang)])]
  | typed lexical datatype =>
    .record [("typed",
      .record [("lexical", .ofString lexical), ("datatype", .ofString datatype)])]
  | iri name => .record [("iri", .ofString name)]
  | typeError => .ofString "type_error"

/-- Two strings that make up a record. -/
def stringPair? (names : List String) (j : Json) : Option (String × String) := do
  let [some a, some b] ← Json.fields? false names j | none
  return (← a.string?, ← b.string?)

/-- The value of a variant whose contents may have containers to the given depth. -/
def ofVariant? [Json.NumberReader] (depth : Nat) (kind : String) (j : Json) : Option Value :=
  if kind = "boolean" then j.bool?.map boolean
  else if kind = "integer" then j.int64?.map integer
  else if kind = "double" then j.double?.map double
  else if kind = "string" then j.string?.map string
  else if kind = "iri" then j.string?.map iri
  else if kind = "lang_string" ∧ 0 < depth then
    (stringPair? ["value", "lang"] j).map fun p => langString p.1 p.2
  else if kind = "typed" ∧ 0 < depth then
    (stringPair? ["lexical", "datatype"] j).map fun p => typed p.1 p.2
  else if kind = "type_error" then
    match j with
    | .null => some typeError
    | _ => none
  else none

/-- The value of a JSON form whose containers are nested at most `depth` deep. -/
def ofJson? [Json.NumberReader] (depth : Nat) (j : Json) : Option Value :=
  match j with
  | .string points => if Json.text? points = some "type_error" then some typeError else none
  | j =>
    match depth, j.variant? with
    | depth + 1, some (kind, j) => ofVariant? depth kind j
    | _, _ => none

end Residual.Value
