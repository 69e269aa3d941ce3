import Residual.Rule.Basic

/-!
# The standard rules

Typed terms and nested concatenations cannot be expressed by the back end as they are.

* `Rule.strOfTerm`: `str(rdfTerm(l, d))` becomes a typed term of a plain string over `str(l)`.
* `Rule.datatypeOfTerm`: `datatype(rdfTerm(l, d))` becomes `d`, as an IRI if it is a string.
* `Rule.flattenConcat`: concatenations among the arguments give way to their own arguments.
* `RuleTable.standard`: the table of the three.
-/

namespace Residual

namespace Rule

/-- The string of a typed term is the string of its text. -/
def strOfTerm : Rule := fun c =>
  match c.args with
  | [.term l _] => some (.typedLiteral (.apply .str [l]) Xsd.string)
  | _ => none

/-- The datatype of a typed term is its second part. -/
def datatypeOfTerm : Rule := fun c =>
  match c.args with
  | [.term _ (.const (.string name))] => some (.const (.iri name))
  | [.term _ d] => some d
  | _ => none

/-- The arguments of a concatenation. -/
def concatArgs? : Expr → Option (List Expr)
  | .call name args => if name = some Operator.concat.name then some args else none
  | _ => none

/-- Concatenations among the arguments are replaced by their arguments, one level deep. -/
def flattenConcat : Rule := fun c =>
  if c.args.any fun a => (concatArgs? a).isSome then
    some (.call c.name (c.args.flatMap fun a => (concatArgs? a).getD [a]))
  else none

end Rule

/-- One rule each for `str`, `datatype` and `concat`. -/
def RuleTable.standard : RuleTable :=
  .ofList [(Operator.str.name, Rule.strOfTerm), (Operator.datatype.name, Rule.datatypeOfTerm),
    (Operator.concat.name, Rule.flattenConcat)]

end Residual
