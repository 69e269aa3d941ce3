/-!
# Operators

The operators and functions that have a meaning of their own on constants. In an expression they
are called by name.

* `Operator.ofName?`: the operator of a name, which must match exactly.
* `Operator.arity`: the number of operands.
-/

namespace Residual

inductive Operator where
  | eq | ne | lt | le | gt | ge
  | and | or | not
  | add | sub | mul | div
  | str | lang | datatype | isIri | isLiteral
  | concat | strLen | uCase | lCase | contains | strStarts | strEnds
  deriving Repr, DecidableEq

namespace Operator

/-- Every operator. -/
def all : List Operator :=
  [eq, ne, lt, le, gt, ge, and, or, not, add, sub, mul, div, str, lang, datatype, isIri, isLiteral,
   concat, strLen, uCase, lCase, contains, strStarts, strEnds]

/-- The name by which an operator is called. -/
def name : Operator → String
  | eq => "="
  | ne => "!="
  | lt => "<"
  | le => "<="
  | gt => ">"
  | ge => ">="
  | and => "&&"
  | or => "||"
  | not => "!"
  | add => "+"
  | sub => "-"
  | mul => "*"
  | div => "/"
  | str => "str"
  | lang => "lang"
  | datatype => "datatype"
  | isIri => "isIRI"
  | isLiteral => "isLiteral"
  | concat => "concat"
  | strLen => "strlen"
  | uCase => "ucase"
  | lCase => "lcase"
  | contains => "contains"
  | strStarts => "strstarts"
  | strEnds => "strends"

def ofName? (s : String) : Option Operator := all.find? (·.name == s)

def isComparison : Operator → Bool
  | eq | ne | lt | le | gt | ge => true
  | _ => false

/-- Operators printed between their two operands. -/
def isInfix : Operator → Bool
  | and | or | add | sub | mul | div => true
  | op => op.isComparison

/-- The number of operands; `none` if any number will do. -/
def arity : Operator → Option Nat
  | concat => none
  | not | str | lang | datatype | isIri | isLiteral | strLen | uCase | lCase => some 1
  | _ => some 2

theorem mem_all (op : Operator) : op ∈ all := by cases op <;> decide

theorem name_injective {a b : Operator} (h : a.name = b.name) : a = b := by
  revert h
  cases a <;> cases b <;> decide

theorem ofName?_eq_some_iff {s : String} {op : Operator} : ofName? s = some op ↔ op.name = s := by
  constructor
  · intro h
    simpa using List.find?_some h
  · rintro rfl
    cases h : ofName? op.name with
    | none => simpa [ofName?, mem_all] using List.find?_eq_none.mp h op (mem_all op)
    | some op' => exact congrArg some (name_injective (by simpa using List.find?_some h))

end Operator

end Residual
