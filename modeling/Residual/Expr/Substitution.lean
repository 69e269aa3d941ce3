import Residual.Dictionary
import Residual.Expr.Basic

/-!
# Bindings and substitution

A binding gives variables expressions. Substitution puts these in place of the variables, all at
once: variables inside the expressions put in are left alone.

* `Expr.substitute`: the simultaneous substitution.
-/

namespace Residual

/-- Expressions for some variables. -/
abbrev Binding := Dictionary Expr

namespace Expr

mutual

/-- Puts the bound expressions in place of the variables of a binding. -/
def substitute (b : Binding) : Expr → Expr
  | const v => const v
  | var x => (b.find? x).getD (var x)
  | call name args => call name (substituteAll b args)
  | term l d => term (l.substitute b) (d.substitute b)

/-- Substitution in every expression of a list. -/
def substituteAll (b : Binding) : List Expr → List Expr
  | [] => []
  | e :: es => e.substitute b :: substituteAll b es

end

theorem substituteAll_eq_map (b : Binding) (es : List Expr) :
    substituteAll b es = es.map (substitute b) := by
  induction es with
  | nil => rfl
  | cons e es ih => simp [substituteAll, ih]

end Expr

end Residual
