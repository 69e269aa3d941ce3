import Residual.Value.Json
import Residual.Expr.Substitution
import Residual.Json.Reader
import Residual.Json.Printer

/-!
# Expressions and bindings in JSON

An expression is a variant: a constant, a variable, a function call or a typed term. The name of a
call may be missing or null; both mean that it has none.

* `Expr.toJson`: the JSON form of an expression.
* `Expr.ofJson?`, `Binding.ofJson?`: what a JSON form stands for, with a limit on the depth.
* `Expr.read?`, `Binding.read?`: what a JSON text stands for.
-/

namespace Residual

namespace Expr

mutual

/-- The JSON form of an expression. -/
def toJson : Expr → Json
  | const v => .record [("constant", v.toJson)]
  | var x => .record [("variable", .ofString x)]
  | call name args =>
    .record [("function", .record [
      ("name", match name with
        | none => .null
        | some f => .ofString f),
      ("args", .array (allToJson args))])]
  | term l d => .record [("rdf_term", .record [("lexical", l.toJson), ("datatype", d.toJson)])]

/-- The JSON forms of a list of expressions. -/
def allToJson : List Expr → List Json
  | [] => []
  | e :: es => e.toJson :: allToJson es

end

theorem allToJson_eq_map (es : List Expr) : allToJson es = es.map toJson := by
  induction es with
  | nil => rfl
  | cons e es ih => simp [allToJson, ih]

/-- The call of a record of a name and arguments, which are read by `read`. -/
def callOf? (read : Json → Option Expr) (j : Json) : Option Expr := do
  let [name, some (.array args)] ← Json.fields? false ["name", "args"] j | none
  return call (← Json.optionalString? name) (← args.mapM read)

/-- The typed term of a record of two parts, which are read by `read`. -/
def termOf? (read : Json → Option Expr) (j : Json) : Option Expr := do
  let [some l, some d] ← Json.fields? false ["lexical", "datatype"] j | none
  return term (← read l) (← read d)

/-- The expression of a JSON form whose containers are nested at most `depth` deep. Around the
arguments of a call there are three containers, and two around the parts of a typed term. -/
def ofJson? [Json.NumberReader] (depth : Nat) (j : Json) : Option Expr :=
  match depth, j.variant? with
  | depth + 1, some (kind, j) =>
    if kind = "constant" then (Value.ofJson? depth j).map const
    else if kind = "variable" then j.string?.map var
    else if kind = "function" then
      match depth with
      | depth + 2 => callOf? (ofJson? depth) j
      | _ => none
    else if kind = "rdf_term" then
      match depth with
      | depth + 1 => termOf? (ofJson? depth) j
      | _ => none
    else none
  | _, _ => none

/-- The expression that a JSON text stands for. -/
def read? [Json.NumberReader] (s : String) : Option Expr :=
  (Json.read? s).bind (ofJson? Json.depthLimit)

end Expr

namespace Binding

/-- The binding of a JSON object from variables to expressions. Of several expressions for one
variable the last counts. -/
def ofJson? [Json.NumberReader] (depth : Nat) (j : Json) : Option Binding :=
  match depth, j with
  | depth + 1, .object members => do
    let members ← Json.namedMembers? members
    return Dictionary.ofList
      (← members.mapM fun m => (Expr.ofJson? depth m.2).map fun e => (m.1, e))
  | _, _ => none

/-- The binding that a JSON text stands for. -/
def read? [Json.NumberReader] (s : String) : Option Binding :=
  (Json.read? s).bind (ofJson? Json.depthLimit)

end Binding

end Residual
