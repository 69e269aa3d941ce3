import Residual.Settings.Basic
import Residual.Json.Record
import Residual.Json.Reader

/-!
# Settings in JSON

Settings are a record of three fields, each of which may be missing. Other fields are refused.

* `Settings.read?`: the settings of a JSON text.
-/

namespace Residual.Settings

/-- A field that keeps its default if it is missing. -/
def orDefault {α : Type} (default : α) (read : Json → Option α) : Option Json → Option α
  | none => some default
  | some j => read j

/-- The strings of an array. -/
def strings? : Json → Option (List String)
  | .array items => items.mapM Json.string?
  | _ => none

def ofJson? (j : Json) : Option Settings := do
  let [builtins, functions, transforms] ←
    Json.fields? true ["builtins", "functions", "transforms"] j | none
  return {
    builtins := ← orDefault true Json.bool? builtins
    functions := ← orDefault [] strings? functions
    transforms := ← orDefault true Json.bool? transforms }

/-- The settings that a JSON text stands for. -/
def read? (s : String) : Option Settings := (Json.read? s).bind ofJson?

end Residual.Settings
