import Residual.Registry
import Residual.Rule.Standard
import Residual.Fold.Constant
import Residual.Expr.Substitution
import Residual.Evaluation.Run

/-!
# Partial evaluation

An expression is evaluated from its leaves. A bound variable gives way to its expression, which is
evaluated without the binding. The operands of a node are evaluated from left to right, and the
first type error among them is the result. The rules may then rewrite the node once; the operands
of the node that they give are evaluated as well. In the end a node whose operands are all
constants and whose identifier is admitted is folded, if it can be.

* `Evaluator.run`: evaluation within a given depth, for any rules.
* `Evaluator.evaluate`: evaluation with the depth that the standard rules, or none, need.
-/

namespace Residual

/-- What evaluation depends on besides the binding. -/
structure Evaluator where
  registry : Registry
  rules : Option RuleTable
  /-- Gives nodes with constant operands their values. -/
  constants : Expr → Except FoldError Value := evaluateConstant

namespace Evaluator

/-- All operators are registered, and the standard rules are in place. -/
def standard : Evaluator where
  registry := .builtins
  rules := some .standard

/-! ## Folding -/

/-- A node with constant operands and an admitted identifier. -/
def isFoldable (ev : Evaluator) (e : Expr) : Bool :=
  e.isNode && e.operands.all (·.isConst) && ev.registry.admits e.identifier?

/-- What becomes of a node, given its value or why there is none. -/
def foldedTo (e : Expr) : Except FoldError Value → Expr
  | .ok v => .const v
  | .error err => if err.isNotComparable then .typeError else e

/-- Folds a node if it may be folded. -/
def fold (ev : Evaluator) (e : Expr) : Run Expr :=
  if ev.isFoldable e then
    let answer := ev.constants e
    .ask (.folded e answer) (foldedTo e answer)
  else pure e

/-! ## Nodes -/

/-- Evaluates operands from left to right. There is no result if one of them is the type error,
and those after it are not evaluated. -/
def evaluateOperands (eval : Expr → Run Expr) : List Expr → Run (Option (List Expr))
  | [] => pure (some [])
  | e :: es => do
    let v ← eval e
    if v.isTypeError then pure none
    else do
      let vs ← evaluateOperands eval es
      pure (vs.map (v :: ·))

/-- A node with its operands evaluated. -/
def rebuild (eval : Expr → Run Expr) (e : Expr) : Run (Option Expr) := do
  let vs ← evaluateOperands eval e.operands
  pure (vs.map e.withOperands)

/-- Offers a node to the rules. -/
def offer (ev : Evaluator) (e : Expr) : Run (Option Expr) :=
  match ev.rules with
  | none => pure none
  | some table =>
    let answer := table.tryRewrite e
    .ask (.offered e answer) answer

/-- Rewrites and folds a node with evaluated operands. The node that a rule gives is not offered
to the rules again. -/
def settle (ev : Evaluator) (eval : Expr → Run Expr) (e : Expr) : Run Expr := do
  match ← ev.offer e with
  | none => ev.fold e
  | some rewritten =>
    match ← rebuild eval rewritten with
    | none => pure .typeError
    | some e => ev.fold e

/-- Evaluates a node. Its operands are evaluated by `outer`, those that a rule builds by `inner`. -/
def evaluateNode (ev : Evaluator) (outer inner : Expr → Run Expr) (e : Expr) : Run Expr := do
  match ← rebuild outer e with
  | none => pure .typeError
  | some e => ev.settle inner e

/-! ## Expressions -/

/-- Evaluates an expression with a binding. `depth` bounds how deep evaluations are nested. -/
def run (ev : Evaluator) : (depth : Nat) → Binding → Expr → Run Expr
  | 0, _, _ => .stop
  | depth + 1, b, e =>
    match e with
    | .const v => pure (.const v)
    | .var x =>
      match b.find? x with
      | some bound => ev.run depth ∅ bound
      | none => pure (.var x)
    | .call name args => ev.evaluateNode (ev.run depth b) (ev.run depth ∅) (.call name args)
    | .term l d => ev.evaluateNode (ev.run depth b) (ev.run depth ∅) (.term l d)

/-- A depth that is enough for the standard rules and for none: what they build is smaller than
the node that they rewrite. -/
def depthFor (b : Binding) (e : Expr) : Nat := (e.substitute b).size + 1

/-- Evaluates an expression with a binding under the standard rules or none. -/
def evaluate (ev : Evaluator) (b : Binding) (e : Expr) : Expr :=
  (ev.run (depthFor b e) b e).result?.getD e

/-- What is asked during `evaluate`. -/
def traceOf (ev : Evaluator) (b : Binding) (e : Expr) : List Event :=
  (ev.run (depthFor b e) b e).trace

end Evaluator

end Residual
