import Residual.Proofs.Calls

/-!
# Termination

An evaluation calls for others that are not parts of the expression: for those of the operands that
a rule builds from operands already evaluated. Rules that never make a node larger leave room for
this, because results are not larger either. So no chain of calls is infinite, and the depth that an
evaluation takes is bounded by the size of the expression after substitution, which bounds the size
of the result as well.

* `Evaluator.Rebuilt.eq_mapOperands`: what a node with evaluated operands is.
* `Evaluator.acc_calls`: no infinite chain of calls.
* `Evaluator.evaluate_terminates`: depth and size under the standard rules or none.
-/

namespace Residual.Evaluator

open Residual.Expr

section

variable {ev : Evaluator} (h : ev.NonGrowing)

include h

/-! ## Nodes with evaluated operands -/

theorem eq_map_of_returns {b : Binding} {es vs : List Expr}
    (hvs : List.Forall₂ (fun a v => ev.Returns b a v ∧ v ≠ typeError) es vs) :
    vs = es.map (ev.evaluate b) := by
  induction hvs with
  | nil => rfl
  | cons ha _ ih => rw [List.map_cons, ← ih, ha.1.unique (returns_evaluate h b _)]

theorem Rebuilt.eq_mapOperands {b : Binding} {e e' : Expr} (he : ev.Rebuilt b e e') :
    e' = e.mapOperands (ev.evaluate b) := by
  obtain ⟨-, vs, hvs, rfl⟩ := he
  rw [eq_map_of_returns h hvs, mapOperands]

theorem Rebuilt.size_le {b : Binding} {e e' : Expr} (he : ev.Rebuilt b e e') :
    e'.size ≤ (e.substitute b).size := by
  rw [Rebuilt.eq_mapOperands h he, substitute_node he.1]
  exact size_mapOperands_le fun a _ => size_evaluate_le h b a

/-- What a rule builds is smaller than the node after substitution. -/
theorem size_lt_of_built {b : Binding} {e e' e'' a : Expr} (he : ev.Rebuilt b e e')
    (hrule : ev.rewritten? e' = some e'') (ha : a ∈ e''.operands) :
    a.size < (e.substitute b).size :=
  calc a.size
      < e'.size := h.size_operand_lt hrule ha
    _ ≤ (e.substitute b).size := Rebuilt.size_le h he

/-! ## Chains of calls -/

theorem acc_calls_empty (e : Expr) : Acc (fun p q => ev.Calls q p) (∅, e) := by
  generalize hn : e.size = n
  induction n using Nat.strongRecOn generalizing e with
  | ind n ih =>
    refine Acc.intro _ fun p hcalls => ?_
    cases hcalls with
    | operand ha => exact ih _ (hn ▸ size_lt_of_mem_operands ha) _ rfl
    | bound hx => cases hx
    | built he hrule ha =>
      have hlt := size_lt_of_built h he hrule ha
      rw [substitute_empty] at hlt
      exact ih _ (hn ▸ hlt) _ rfl

/-- With a binding the size after substitution decreases from a node to its operands; every other
call is one without a binding. -/
theorem acc_calls (b : Binding) (e : Expr) : Acc (fun p q => ev.Calls q p) (b, e) := by
  generalize hn : (e.substitute b).size = n
  induction n using Nat.strongRecOn generalizing e with
  | ind n ih =>
    refine Acc.intro _ fun p hcalls => ?_
    cases hcalls with
    | operand ha => exact ih _ (hn ▸ size_substitute_lt_of_mem_operands ha) _ rfl
    | bound hx => exact acc_calls_empty h _
    | built he hrule ha => exact acc_calls_empty h _

end

/-- **Termination.** Under the standard rules or none, whatever the registry, the evaluator of
constants and the binding, there is no infinite chain of calls in an evaluation; it ends with a
result within every depth above the size of the expression after substitution. The result has at
most as many nodes as the expression after substitution, and without a binding at most as many as
the expression. -/
theorem evaluate_terminates {ev : Evaluator} (hev : ev.HasStandardRules) (b : Binding) (e : Expr) :
    Acc (fun p q => ev.Calls q p) (b, e) ∧
      (∀ depth, (e.substitute b).size < depth →
        (ev.run depth b e).result? = some (ev.evaluate b e)) ∧
      (ev.evaluate b e).size ≤ (e.substitute b).size ∧ (ev.evaluate ∅ e).size ≤ e.size :=
  ⟨acc_calls hev.nonGrowing b e, fun _ hdepth => run_result hev.nonGrowing hdepth,
    size_evaluate_le hev.nonGrowing b e, size_evaluate_empty_le hev.nonGrowing e⟩

/-- The string of a typed term whose text is a concatenation that the binding brings in: a call is
built, and the result is as large as the expression. -/
theorem evaluate_terminates_at :
    let b : Binding := Dictionary.ofList [("x", apply .concat [var "y", const (.string "a")])]
    let e := apply .str [term (var "x") (var "d")]
    standard.HasStandardRules ∧ (e.substitute b).size = 6 ∧
      standard.evaluate b e = typedLiteral
        (apply .str [apply .concat [var "y", const (.string "a")]]) Xsd.string ∧
      (standard.run 7 b e).result? = some (standard.evaluate b e) ∧
      (standard.evaluate b e).size ≤ 6 := by
  intro b e
  have hev : standard.HasStandardRules := Or.inr rfl
  obtain ⟨-, hruns, hsize, -⟩ := evaluate_terminates hev b e
  have hsubstitute : (e.substitute b).size = 6 := rfl
  rw [hsubstitute] at hruns hsize
  exact ⟨hev, hsubstitute, rfl, hruns 7 (by omega), hsize⟩

end Residual.Evaluator
