import Residual.Dictionary
import Residual.Expr.Basic

/-!
# Rewrite rules

A rule restructures a call or declines it. A table holds the rules for each identifier in the order
of registration; the first that accepts a call gives the answer.

* `RuleTable.register`: a rule added after those of the same identifier.
* `RuleTable.tryRewrite`: the answer of the table to an expression.
-/

namespace Residual

/-- A rule: the expression to put in place of a call, or `none` for a call that it declines. -/
abbrev Rule := Call → Option Expr

/-- The rules of each identifier. -/
structure RuleTable where
  rules : Dictionary (List Rule)

namespace RuleTable

def empty : RuleTable := ⟨∅⟩

instance : EmptyCollection RuleTable := ⟨empty⟩

/-- The rules of an identifier, earliest first. -/
def rulesFor (t : RuleTable) (name : String) : List Rule := (t.rules.find? name).getD []

/-- Adds a rule for an identifier. -/
def register (t : RuleTable) (name : String) (rule : Rule) : RuleTable :=
  ⟨t.rules.insert name (t.rulesFor name ++ [rule])⟩

/-- The table of a list of registrations. -/
def ofList (registrations : List (String × Rule)) : RuleTable :=
  registrations.foldl (fun t r => t.register r.1 r.2) ∅

def ruleCount (t : RuleTable) (name : String) : Nat := (t.rulesFor name).length

def isEmpty (t : RuleTable) : Bool := t.rules.isEmpty

/-- The answer to a call. Calls without an identifier have no rules. -/
def answer (t : RuleTable) (c : Call) : Option Expr :=
  match c.identifier? with
  | none => none
  | some f => (t.rulesFor f).findSome? fun rule => rule c

/-- The expression to put in place of a call, if a rule accepts it. -/
def tryRewrite (t : RuleTable) : Expr → Option Expr
  | .call name args => t.answer ⟨name, args⟩
  | _ => none

/-- The expression after at most one rewriting. -/
def rewrite (t : RuleTable) (e : Expr) : Expr := (t.tryRewrite e).getD e

theorem rulesFor_register (t : RuleTable) (name other : String) (rule : Rule) :
    (t.register name rule).rulesFor other =
      t.rulesFor other ++ (if other = name then [rule] else []) := by
  by_cases h : other = name <;> simp [rulesFor, register, Dictionary.find?_insert, h]

end RuleTable

end Residual
