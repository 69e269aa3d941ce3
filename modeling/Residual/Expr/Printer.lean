import Residual.Expr.Basic

/-!
# The printed form of expressions

* `Expr.text`: values as such, variables after a question mark, and nodes as a name with operands
  in parentheses. An operator that is written between its operands stands between them, in
  parentheses, if there are exactly two.
-/

namespace Residual.Expr

/-- The operator of a call that is printed between its operands. -/
def infixOperator? (name : Option String) : Option Operator :=
  ((identifierOf name).bind Operator.ofName?).filter (·.isInfix)

/-- The printed form of a call with printed arguments. -/
def callText (name : Option String) (args : List String) : String :=
  match infixOperator? name, args with
  | some op, [l, r] => "(" ++ l ++ " " ++ op.name ++ " " ++ r ++ ")"
  | _, _ => (identifierOf name).getD "" ++ "(" ++ ", ".intercalate args ++ ")"

mutual

def text : Expr → String
  | const v => v.text
  | var x => "?" ++ x
  | call name args => callText name (texts args)
  | term l d => "rdfTerm(" ++ ", ".intercalate [l.text, d.text] ++ ")"

/-- The printed forms of a list of expressions. -/
def texts : List Expr → List String
  | [] => []
  | e :: es => e.text :: texts es

end

theorem texts_eq_map (es : List Expr) : texts es = es.map text := by
  induction es with
  | nil => rfl
  | cons e es ih => simp [texts, ih]

end Residual.Expr
