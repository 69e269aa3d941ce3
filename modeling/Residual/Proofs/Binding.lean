import Residual.Proofs.Tree
import Residual.Proofs.Depth

/-!
# A binding is one substitution

To evaluate an expression with a binding is to put the bound expressions in place of its variables,
all at once, and to evaluate the outcome without a binding. A bound expression is evaluated without
the binding, and so is whatever a rule builds; hence the binding acts once, however its entries
refer to each other. This holds for any rules, whether or not an evaluation under them ends, and of
the questions asked as well as of the result.

* `Evaluator.rebuild_mapOperands`: a node with other operands is evaluated through these.
* `Evaluator.run_le_run_substitute`, `Evaluator.run_substitute_le_run`: each of the two evaluations
  goes as far as the other, up to one level of depth for looking up a variable.
* `Evaluator.returns_substitute_iff`: they have the same result.
* `Evaluator.evaluation_substitutes_once`: they end together, and with the same trace.
-/

namespace Residual

open Residual.Expr

namespace Run

variable {α β γ : Type}

theorem bind_assoc (x : Run α) (f : α → Run β) (g : β → Run γ) :
    x >>= f >>= g = x >>= fun a => f a >>= g := by
  show andThen (andThen x f) g = andThen x fun a => andThen (f a) g
  cases x with
  | none => rfl
  | some p =>
    obtain ⟨a, asked⟩ := p
    simp only [andThen]
    cases f a with
    | none => rfl
    | some q =>
      obtain ⟨b, asked'⟩ := q
      dsimp only
      cases g b with
      | none => rfl
      | some r => exact congrArg (fun events => some (r.1, events)) (List.append_assoc _ _ _)

end Run

namespace Evaluator

open Run

/-! ## Nodes with other operands -/

theorem evaluateOperands_map (eval : Expr → Run Expr) (σ : Expr → Expr) (es : List Expr) :
    evaluateOperands eval (es.map σ) = evaluateOperands (fun a => eval (σ a)) es := by
  induction es with
  | nil => rfl
  | cons e es ih => rw [List.map_cons, evaluateOperands, evaluateOperands, ih]

/-- Only the operands of a node are evaluated, so that it does not matter which operands the node
had whose operands are replaced in the end. -/
theorem rebuild_mapOperands (eval : Expr → Run Expr) (σ : Expr → Expr) (e : Expr) :
    rebuild eval (e.mapOperands σ) = rebuild (fun a => eval (σ a)) e := by
  rw [rebuild, rebuild, operands_mapOperands, evaluateOperands_map]
  cases e with
  | const v => rfl
  | var x => rfl
  | call name args => rfl
  | term l d =>
    -- the two parts are read off one after the other, which shows that there are two of them
    simp only [operands, evaluateOperands, bind_assoc]
    refine congrArg _ (funext fun v => ?_)
    split
    · rfl
    · simp only [bind_assoc]
      refine congrArg _ (funext fun w => ?_)
      split <;> rfl

theorem evaluateNode_mapOperands (ev : Evaluator) (outer inner : Expr → Run Expr) (σ : Expr → Expr)
    (e : Expr) : ev.evaluateNode outer inner (e.mapOperands σ) =
      ev.evaluateNode (fun a => outer (σ a)) inner e := by
  rw [evaluateNode, evaluateNode, rebuild_mapOperands]

theorem run_node (ev : Evaluator) (depth : Nat) (b : Binding) {e : Expr} (he : e.isNode = true) :
    ev.run (depth + 1) b e = ev.evaluateNode (ev.run depth b) (ev.run depth ∅) e := by
  cases e with
  | const v => cases he
  | var x => cases he
  | call name args => rfl
  | term l d => rfl

/-! ## The binding as a substitution -/

theorem run_le_run_substitute (ev : Evaluator) (depth : Nat) (b : Binding) (e : Expr) :
    (ev.run depth b e).Le (ev.run depth ∅ (e.substitute b)) := by
  induction depth generalizing e with
  | zero => exact stop_le _
  | succ depth ih =>
    cases hnode : e.isNode with
    | true =>
      have hnode' : (e.mapOperands (substitute b)).isNode = true := by rwa [isNode_mapOperands]
      rw [substitute_node hnode, run_node ev depth b hnode, run_node ev depth ∅ hnode',
        evaluateNode_mapOperands]
      exact evaluateNode_le ev ih (fun _ => Le.refl _) e
    | false =>
      cases e with
      | const v => exact Le.refl _
      | var x =>
        rw [substitute_var, run]
        cases b.find? x with
        | none => exact Le.refl _
        | some bound => exact run_le ev (Nat.le_succ depth) ∅ bound
      | call name args => cases hnode
      | term l d => cases hnode

theorem run_substitute_le_run (ev : Evaluator) (depth : Nat) (b : Binding) (e : Expr) :
    (ev.run depth ∅ (e.substitute b)).Le (ev.run (depth + 1) b e) := by
  induction depth generalizing e with
  | zero => exact stop_le _
  | succ depth ih =>
    cases hnode : e.isNode with
    | true =>
      have hnode' : (e.mapOperands (substitute b)).isNode = true := by rwa [isNode_mapOperands]
      rw [substitute_node hnode, run_node ev depth ∅ hnode', evaluateNode_mapOperands,
        run_node ev (depth + 1) b hnode]
      exact evaluateNode_le ev ih (run_le ev (Nat.le_succ depth) ∅) e
    | false =>
      cases e with
      | const v => exact Le.refl _
      | var x =>
        rw [substitute_var, run]
        cases b.find? x with
        | none => exact Le.refl _
        | some bound => exact Le.refl _
      | call name args => cases hnode
      | term l d => cases hnode

/-- Result and questions are the same with the binding and after the substitution. -/
theorem exists_run_substitute_iff {ev : Evaluator} {b : Binding} {e : Expr}
    {p : Expr × List Event} :
    (∃ depth, ev.run depth b e = some p) ↔ ∃ depth, ev.run depth ∅ (e.substitute b) = some p := by
  constructor
  · rintro ⟨depth, h⟩
    exact ⟨depth, run_le_run_substitute ev depth b e p h⟩
  · rintro ⟨depth, h⟩
    exact ⟨depth + 1, run_substitute_le_run ev depth b e p h⟩

theorem returns_iff_exists_run {ev : Evaluator} {b : Binding} {e r : Expr} :
    ev.Returns b e r ↔ ∃ asked depth, ev.run depth b e = some (r, asked) := by
  constructor
  · rintro ⟨depth, h⟩
    obtain ⟨⟨r', asked⟩, hrun, rfl⟩ := Option.map_eq_some_iff.mp h
    exact ⟨asked, depth, hrun⟩
  · rintro ⟨asked, depth, h⟩
    exact ⟨depth, Option.map_eq_some_iff.mpr ⟨_, h, rfl⟩⟩

theorem returns_substitute_iff {ev : Evaluator} {b : Binding} {e r : Expr} :
    ev.Returns b e r ↔ ev.Returns ∅ (e.substitute b) r := by
  rw [returns_iff_exists_run, returns_iff_exists_run]
  exact exists_congr fun asked => exists_run_substitute_iff

/-- **One substitution.** Whatever the registry, the rules and the evaluator of constants,
evaluation with a binding ends if and only if evaluation without one ends after the bound
expressions are put in place of the variables; the two results are equal, and the same questions
are asked for them in the same order. -/
theorem evaluation_substitutes_once (ev : Evaluator) (b : Binding) (e : Expr) :
    ((∃ r, ev.Returns b e r) ↔ ∃ r, ev.Returns ∅ (e.substitute b) r) ∧
      (∀ r s, ev.Returns b e r → ev.Returns ∅ (e.substitute b) s → r = s) ∧
      ∀ r asked, (∃ depth, ev.run depth b e = some (r, asked)) ↔
        ∃ depth, ev.run depth ∅ (e.substitute b) = some (r, asked) := by
  refine ⟨exists_congr fun r => returns_substitute_iff, fun r s hr hs => ?_, fun r asked => ?_⟩
  · exact hr.unique (returns_substitute_iff.mpr hs)
  · exact exists_run_substitute_iff

/-- Two variables bound to each other are exchanged, and the variable that a rule brings in is left
alone although it is bound. -/
theorem evaluation_substitutes_once_at :
    let ev : Evaluator := {
      registry := .builtins
      rules := some (.ofList [("f", fun c => some (call (some "g") (c.args ++ [var "x"])))]) }
    let b : Binding := Dictionary.ofList [("x", var "y"), ("y", var "x")]
    let r := call (some "g") [var "y", var "x", var "x"]
    ev.Returns b (call (some "f") [var "x", var "y"]) r ∧
      ev.Returns ∅ (call (some "f") [var "y", var "x"]) r := by
  intro ev b r
  have hearly : ev.Returns b (call (some "f") [var "x", var "y"]) r := ⟨3, rfl⟩
  obtain ⟨hends, hequal, -⟩ := evaluation_substitutes_once ev b (call (some "f") [var "x", var "y"])
  obtain ⟨s, hlate⟩ := hends.mp ⟨r, hearly⟩
  obtain rfl := hequal r s hearly hlate
  exact ⟨hearly, hlate⟩

end Evaluator

end Residual
