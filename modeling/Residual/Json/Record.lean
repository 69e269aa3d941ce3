import Residual.Json.Basic

/-!
# Records and variants

A record is written as an object with a member for each field, or as an array of the fields in
order. A variant is written as an object whose only member names it.

* `Json.fields?`: the fields of a record, those that are missing as `none`.
* `Json.variant?`: the name of a variant and what it holds.
* `Json.depthLimit`: how deep the containers that a format looks into may be nested.
-/

namespace Residual.Json

/-- Containers that are looked into may be nested this deep. What is ignored has no limit. -/
def depthLimit : Nat := 127

/-- The only member with a name, or `none` if there is no such member; two are refused. -/
def member? (members : List (String × Json)) (name : String) : Option (Option Json) :=
  match members.filter (·.1 = name) with
  | [] => some none
  | [m] => some (some m.2)
  | _ => none

/-- The members of an object under proper names. -/
def namedMembers? (members : List (List Nat × Json)) : Option (List (String × Json)) :=
  members.mapM fun m => (text? m.1).map fun name => (name, m.2)

/-- The fields of a record in order. An array may end early, and an object may leave fields out and
hold others; `closed` records refuse these. -/
def fields? (closed : Bool) (names : List String) : Json → Option (List (Option Json))
  | array items =>
    if items.length ≤ names.length then
      some (items.map some ++ List.replicate (names.length - items.length) none)
    else none
  | object members => do
    let members ← namedMembers? members
    if closed && members.any fun m => !names.contains m.1 then none
    else names.mapM (member? members)
  | _ => none

/-- The name of a variant and what it holds. -/
def variant? : Json → Option (String × Json)
  | object [(name, j)] => (text? name).map fun name => (name, j)
  | _ => none

/-- A string that may be missing or null. -/
def optionalString? : Option Json → Option (Option String)
  | none => some none
  | some null => some none
  | some j => j.string?.map some

end Residual.Json
