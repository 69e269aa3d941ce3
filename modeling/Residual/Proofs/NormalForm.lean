import Residual.Proofs.StandardRules

/-!
# Normal forms

A normal expression is one that evaluation without a binding leaves as it is: no operand is the
type error, no rule rewrites a node, and no node can be folded. Under the standard rules every
result is normal, although a node that a rule gives is not offered to the rules again.

* `Evaluator.IsNormal`: normal expressions.
* `Evaluator.IsNormal.evaluate_eq`: they are left as they are.
* `Evaluator.isNormal_evaluate`: results are normal.
* `Evaluator.evaluate_idempotent`: to evaluate a result again changes nothing.
-/

namespace Residual.Evaluator

open Residual.Expr Rule

/-- An expression in which nothing is left to do without a binding. -/
inductive IsNormal (ev : Evaluator) : Expr → Prop
  | const (v : Value) : IsNormal ev (const v)
  | var (x : String) : IsNormal ev (var x)
  | node (e : Expr) (he : e.isNode = true) (hnormal : ∀ a ∈ e.operands, IsNormal ev a)
    (hno : ∀ a ∈ e.operands, a ≠ typeError) (hrule : ev.rewritten? e = none)
    (hfold : ev.folded e = e) : IsNormal ev e

namespace IsNormal

variable {ev : Evaluator} {e : Expr}

theorem rewritten?_eq_none (h : ev.IsNormal e) (he : e.isNode = true) :
    ev.rewritten? e = none := by
  cases h with
  | const v => simp [isNode] at he
  | var x => simp [isNode] at he
  | node _ _ _ _ hrule _ => exact hrule

theorem folded_eq (h : ev.IsNormal e) : ev.folded e = e := by
  cases h with
  | const v => rfl
  | var x => rfl
  | node _ _ _ _ _ hfold => exact hfold

theorem operands (h : ev.IsNormal e) : ∀ a ∈ e.operands, ev.IsNormal a ∧ a ≠ typeError := by
  cases h with
  | const v => simp [Expr.operands]
  | var x => simp [Expr.operands]
  | node _ _ hnormal hno _ _ => exact fun a ha => ⟨hnormal a ha, hno a ha⟩

theorem evaluate_eq (hev : ev.NonGrowing) (h : ev.IsNormal e) : ev.evaluate ∅ e = e := by
  induction h with
  | const v => rfl
  | var x => exact evaluate_var_empty hev x
  | node e he hnormal hno hrule hfold ih =>
    rw [evaluate_node hev ∅ he, onOperands_of_noTypeError, mapOperands_eq_self ih, settled, hrule,
      hfold]
    intro a ha
    rw [ih a ha]
    exact hno a ha

end IsNormal

section

variable {ev : Evaluator}

theorem isNormal_folded {e : Expr} (he : e.isNode = true)
    (hnormal : ∀ a ∈ e.operands, ev.IsNormal a) (hno : ∀ a ∈ e.operands, a ≠ typeError)
    (hrule : ev.rewritten? e = none) : ev.IsNormal (ev.folded e) := by
  rcases ev.folded_cases e with ⟨v, hv⟩ | hfold
  · rw [hv]
    exact .const v
  · rw [hfold]
    exact .node e he hnormal hno hrule hfold

theorem spliced_isNormal {args : List Expr} (h : ∀ a ∈ args, ev.IsNormal a ∧ a ≠ typeError) :
    ∀ a ∈ spliced args, ev.IsNormal a ∧ a ≠ typeError := by
  intro a ha
  rcases mem_spliced.mp ha with ⟨ha, -⟩ | ⟨inner, hinner, ha⟩
  · exact h a ha
  · exact (h _ hinner).1.operands a ha

theorem isNormal_typeError : ev.IsNormal typeError := .const _

variable (hev : ev.HasStandardRules)

include hev

theorem HasStandardRules.rewritten?_term (l d : Expr) : ev.rewritten? (term l d) = none := by
  cases hrule : ev.rewritten? (term l d) with
  | none => rfl
  | some e' =>
    have hstep := hev.step hrule
    cases hstep

/-- After the concatenations inside it are spliced, a concatenation of normal arguments has none
inside. -/
theorem HasStandardRules.rewritten?_spliced {args : List Expr}
    (hnormal : ∀ a ∈ args, ev.IsNormal a) :
    ev.rewritten? (apply .concat (spliced args)) = none := by
  cases hrule : ev.rewritten? (apply .concat (spliced args)) with
  | none => rfl
  | some e' =>
    obtain ⟨inner, hinner⟩ := (hev.step hrule).concat_inside
    rcases mem_spliced.mp hinner with ⟨-, hargs⟩ | ⟨outer, houter, hmem⟩
    · rw [concatArgs?_eq_some_iff.mpr rfl] at hargs
      cases hargs
    · have hnone := (hnormal _ houter).rewritten?_eq_none rfl
      rw [hev.rewritten?_of_step hrule (.concat outer ⟨inner, hmem⟩)] at hnone
      cases hnone

theorem onOperands_of_isNormal {next : Expr → Expr} {e : Expr}
    (h : ∀ a ∈ e.operands, ev.IsNormal a ∧ a ≠ typeError) :
    onOperands (ev.evaluate ∅) next e = next e := by
  have hfix : ∀ a ∈ e.operands, ev.evaluate ∅ a = a := fun a ha =>
    (h a ha).1.evaluate_eq hev.nonGrowing
  rw [onOperands_of_noTypeError, mapOperands_eq_self hfix]
  intro a ha
  rw [hfix a ha]
  exact (h a ha).2

theorem isNormal_settled {e : Expr} (he : e.isNode = true)
    (hnormal : ∀ a ∈ e.operands, ev.IsNormal a) (hno : ∀ a ∈ e.operands, a ≠ typeError)
    (hstr : ∀ a, a.size < e.size → ev.IsNormal (ev.evaluate ∅ a)) :
    ev.IsNormal (ev.settled (ev.evaluate ∅) e) := by
  unfold settled
  cases hrule : ev.rewritten? e with
  | none => exact isNormal_folded he hnormal hno hrule
  | some e' =>
    dsimp only
    cases hev.step hrule with
    | str l d =>
      -- the call that the rule builds is no part of the node, but it is smaller
      refine onOperands_induction isNormal_typeError fun hno' => ?_
      refine isNormal_folded rfl (forall_operands_mapOperands.mpr fun a ha => ?_)
        (forall_operands_mapOperands.mpr hno') (hev.rewritten?_term _ _)
      rcases List.mem_cons.mp ha with rfl | ha
      · have hd := size_pos d
        refine hstr _ ?_
        simp only [apply, size, totalSize]
        omega
      · rw [List.mem_singleton.mp ha]
        exact .const _
    | datatypeName l name => exact .const _
    | datatype l d hd =>
      have hterm : ev.IsNormal (term l e') := hnormal _ (List.mem_singleton_self _)
      have hslot : ev.IsNormal e' := (hterm.operands e' (by simp [operands])).1
      rw [onOperands_of_isNormal hev hslot.operands, hslot.folded_eq]
      exact hslot
    | concat args hinner =>
      have hargs : ∀ a ∈ (apply .concat (spliced args)).operands, ev.IsNormal a ∧ a ≠ typeError :=
        spliced_isNormal fun a ha => ⟨hnormal a ha, hno a ha⟩
      rw [onOperands_of_isNormal hev hargs]
      exact isNormal_folded rfl (fun a ha => (hargs a ha).1) (fun a ha => (hargs a ha).2)
        (hev.rewritten?_spliced hnormal)

theorem isNormal_evaluate_empty (e : Expr) : ev.IsNormal (ev.evaluate ∅ e) := by
  induction e using unboundInduction hev.nonGrowing with
  | const v => exact .const v
  | var x =>
    rw [evaluate_var_empty hev.nonGrowing]
    exact .var x
  | node e he hoperands hsmaller =>
    rw [evaluate_node hev.nonGrowing ∅ he]
    refine onOperands_induction isNormal_typeError fun hno => ?_
    exact isNormal_settled hev (by simpa using he) (forall_operands_mapOperands.mpr hoperands)
      (forall_operands_mapOperands.mpr hno) hsmaller

theorem isNormal_evaluate (b : Binding) (e : Expr) : ev.IsNormal (ev.evaluate b e) := by
  rw [evaluate_substitute hev.nonGrowing]
  exact isNormal_evaluate_empty hev _

/-- **Idempotence.** Whatever the registry, the evaluator of constants and the binding, evaluation
ends, and its result evaluates to itself. -/
theorem evaluate_idempotent (b : Binding) (e : Expr) :
    ev.Returns b e (ev.evaluate b e) ∧
      ev.Returns ∅ (ev.evaluate b e) (ev.evaluate b e) ∧
      ev.evaluate ∅ (ev.evaluate b e) = ev.evaluate b e := by
  have hfix : ev.evaluate ∅ (ev.evaluate b e) = ev.evaluate b e :=
    (isNormal_evaluate hev b e).evaluate_eq hev.nonGrowing
  refine ⟨returns_evaluate hev.nonGrowing b e, ?_, hfix⟩
  have hreturns := returns_evaluate hev.nonGrowing ∅ (ev.evaluate b e)
  rwa [hfix] at hreturns

end

/-- A string of a typed term in a concatenation, with the datatype bound to a variable. -/
theorem evaluate_idempotent_at :
    standard.HasStandardRules ∧
      standard.evaluate ∅ (standard.evaluate (Dictionary.ofList [("x", var "y")])
        (apply .concat [apply .str [term (var "z") (var "x")], apply .concat [var "x"]])) =
      standard.evaluate (Dictionary.ofList [("x", var "y")])
        (apply .concat [apply .str [term (var "z") (var "x")], apply .concat [var "x"]]) :=
  ⟨Or.inr rfl, (evaluate_idempotent (Or.inr rfl) _ _).2.2⟩

end Residual.Evaluator
