import Residual.Proofs.StandardRules

/-!
# Evaluation in stages

Without rules, an expression may be evaluated in two stages: first with what is known early, a part
of the bindings and of the functions, then with the rest. What the first stage folds, the second
would fold in the same way, and what the first stage leaves, it leaves for the second.

* `Binding.followedBy`: the binding of both stages together.
* `Evaluator.withoutRules`: an evaluator without rules.
* `Evaluator.evaluate_evaluate_empty`: a first stage without a binding changes nothing.
* `Evaluator.evaluate_stages`: two stages are one.
-/

namespace Residual

open Residual.Expr

/-! ## Bindings one after the other -/

/-- The entries of the first dictionary, and those of the second for all other names. -/
def Dictionary.union {α : Type} (d d' : Dictionary α) : Dictionary α :=
  d.entries.foldr (fun e acc => acc.insert e.1 e.2) d'

theorem Dictionary.find?_union {α : Type} (d d' : Dictionary α) (name : String) :
    (d.union d').find? name = (d.find? name).or (d'.find? name) := by
  rw [union]
  unfold find? at *
  induction d.entries with
  | nil => rfl
  | cons e es ih =>
    have hinsert := find?_insert (es.foldr (fun e acc => acc.insert e.1 e.2) d') e.1 name e.2
    rw [List.foldr_cons, List.lookup_cons]
    unfold find? at hinsert
    rw [hinsert]
    by_cases h : name = e.1
    · simp [h]
    · rw [if_neg h, beq_eq_false_iff_ne.mpr h]
      exact ih

/-- First one binding, then another: the second also acts inside the expressions of the first. -/
def Binding.followedBy (b₁ b₂ : Binding) : Binding := (b₁.map (substitute b₂)).union b₂

theorem Binding.find?_followedBy (b₁ b₂ : Binding) (x : String) :
    (b₁.followedBy b₂).find? x = ((b₁.find? x).map (substitute b₂)).or (b₂.find? x) := by
  rw [followedBy, Dictionary.find?_union, Dictionary.find?_map]

theorem Expr.substitute_congr {b b' : Binding} (h : ∀ x, b.find? x = b'.find? x) (e : Expr) :
    e.substitute b = e.substitute b' :=
  substitute_congr_of_occursIn fun x _ => h x

theorem Expr.substitute_followedBy (b₁ b₂ : Binding) (e : Expr) :
    e.substitute (b₁.followedBy b₂) = (e.substitute b₁).substitute b₂ := by
  induction e using nodeInduction with
  | const v => rw [substitute_const, substitute_const, substitute_const]
  | var x =>
    rw [substitute_var, substitute_var, Binding.find?_followedBy]
    cases b₁.find? x with
    | none => exact (substitute_var b₂ x).symm
    | some a => rfl
  | node e he ih =>
    have he' : (e.substitute b₁).isNode = true := by
      rw [substitute_node he, isNode_mapOperands, he]
    rw [substitute_node he, substitute_node he', substitute_node he, mapOperands_mapOperands,
      mapOperands_congr ih]

namespace Evaluator

/-! ## Evaluators without rules -/

/-- The evaluator that rewrites nothing. -/
def withoutRules (r : Registry) (constants : Expr → Except FoldError Value) : Evaluator where
  registry := r
  rules := none
  constants := constants

section

variable (r : Registry) (constants : Expr → Except FoldError Value)

theorem nonGrowing_withoutRules : (withoutRules r constants).NonGrowing := by
  intro e e' hrule
  cases hrule

theorem evaluate_node_withoutRules (b : Binding) {e : Expr} (he : e.isNode = true) :
    (withoutRules r constants).evaluate b e =
      onOperands ((withoutRules r constants).evaluate b) (withoutRules r constants).folded e :=
  evaluate_node (nonGrowing_withoutRules r constants) b he

end

/-- What may be folded with some identifiers may be folded with more. -/
theorem isFoldable_of_contains {ev ev' : Evaluator}
    (h : ∀ f, ev.registry.contains f = true → ev'.registry.contains f = true) {e : Expr}
    (he : ev.isFoldable e = true) : ev'.isFoldable e = true := by
  simp only [isFoldable, Bool.and_eq_true] at he ⊢
  refine ⟨he.1, ?_⟩
  have hadmits := he.2
  cases hname : e.identifier? with
  | none => rfl
  | some f =>
    rw [hname] at hadmits
    simp only [Registry.admits, Registry.isKnown, Bool.or_eq_true] at hadmits ⊢
    rcases hadmits with hempty | hcompare | hcontains
    · exact Or.inl hempty
    · exact Or.inr (Or.inl hcompare)
    · exact Or.inr (Or.inr (h f hcontains))

/-! ## Stages -/

section

variable {constants : Expr → Except FoldError Value} {r₁ r₂ : Registry}
  (h : ∀ f, r₁.contains f = true → r₂.contains f = true)

include h

/-- A node that the first stage folds has the same result in the second stage, and one that it
cannot fold is left as it is. -/
theorem evaluate_folded (b : Binding) {e : Expr} (he : e.isNode = true)
    (hno : ∀ a ∈ e.operands, a ≠ typeError) :
    (withoutRules r₂ constants).evaluate b ((withoutRules r₁ constants).folded e) =
      (withoutRules r₂ constants).evaluate b e := by
  by_cases hfold : (withoutRules r₁ constants).isFoldable e = true
  · have hconst : ∀ a ∈ e.operands, (withoutRules r₂ constants).evaluate b a = a := by
      intro a ha
      obtain ⟨v, rfl⟩ := operands_of_isFoldable hfold a ha
      rfl
    have hfold' : (withoutRules r₂ constants).isFoldable e = true := isFoldable_of_contains h hfold
    have hsame : (withoutRules r₁ constants).folded e = (withoutRules r₂ constants).folded e := by
      rw [folded, if_pos hfold, folded, if_pos hfold']
      rfl
    have hevaluate : (withoutRules r₂ constants).evaluate b e =
        (withoutRules r₂ constants).folded e := by
      rw [evaluate_node_withoutRules r₂ constants b he, onOperands_of_noTypeError,
        mapOperands_eq_self hconst]
      intro a ha
      rw [hconst a ha]
      exact hno a ha
    rcases folded_cases (withoutRules r₁ constants) e with ⟨v, hv⟩ | hself
    · rw [hv, evaluate_const, hevaluate, ← hsame, hv]
    · rw [hself]
  · rw [folded, if_neg hfold]

theorem evaluate_evaluate_empty (b : Binding) (e : Expr) :
    (withoutRules r₂ constants).evaluate b ((withoutRules r₁ constants).evaluate ∅ e) =
      (withoutRules r₂ constants).evaluate b e := by
  induction e using nodeInduction with
  | const v => rfl
  | var x => rw [evaluate_var_empty (nonGrowing_withoutRules r₁ constants)]
  | node e he ih =>
    rw [evaluate_node_withoutRules r₁ constants ∅ he]
    rcases onOperands_cases ((withoutRules r₁ constants).evaluate ∅)
      (withoutRules r₁ constants).folded e with ⟨a, ha, htype, heq⟩ | ⟨hno, heq⟩
    · -- the second stage finds the same type error, if it does not find an earlier one
      have hlate : (withoutRules r₂ constants).evaluate b a = typeError := by
        rw [← ih a ha, htype]
        rfl
      rw [heq, evaluate_node_withoutRules r₂ constants b he, onOperands_of_typeError ha hlate]
      rfl
    · have he' : (e.mapOperands ((withoutRules r₁ constants).evaluate ∅)).isNode = true := by
        rw [isNode_mapOperands, he]
      rw [heq, evaluate_folded h b he' (forall_operands_mapOperands.mpr hno),
        evaluate_node_withoutRules r₂ constants b he',
        evaluate_node_withoutRules r₂ constants b he, ← onOperands_congr ih]
      simp only [onOperands, operands_mapOperands, mapOperands_mapOperands, List.any_map]
      rfl

/-- **Stages.** Without rules, whatever the evaluator of constants, evaluation with some functions
and a first binding, and then with these functions or more and a second binding, is evaluation with
both bindings one after the other. In particular, a first stage with fewer functions and with some
of the bindings, as the second stage has them, changes nothing. -/
theorem evaluate_stages (b₁ b₂ : Binding) (e : Expr) :
    ((withoutRules r₁ constants).Returns b₁ e ((withoutRules r₁ constants).evaluate b₁ e) ∧
      (withoutRules r₂ constants).Returns b₂ ((withoutRules r₁ constants).evaluate b₁ e)
        ((withoutRules r₂ constants).evaluate (b₁.followedBy b₂) e) ∧
      (withoutRules r₂ constants).evaluate b₂ ((withoutRules r₁ constants).evaluate b₁ e) =
        (withoutRules r₂ constants).evaluate (b₁.followedBy b₂) e) ∧
    ((∀ x a, b₁.find? x = some a → b₂.find? x = some (a.substitute b₂)) →
      (withoutRules r₂ constants).evaluate b₂ ((withoutRules r₁ constants).evaluate b₁ e) =
        (withoutRules r₂ constants).evaluate b₂ e) := by
  have h₁ := nonGrowing_withoutRules r₁ constants
  have h₂ := nonGrowing_withoutRules r₂ constants
  have hstages : (withoutRules r₂ constants).evaluate b₂ ((withoutRules r₁ constants).evaluate b₁ e) =
      (withoutRules r₂ constants).evaluate (b₁.followedBy b₂) e := by
    calc (withoutRules r₂ constants).evaluate b₂ ((withoutRules r₁ constants).evaluate b₁ e)
        = (withoutRules r₂ constants).evaluate b₂
            ((withoutRules r₁ constants).evaluate ∅ (e.substitute b₁)) := by
          rw [evaluate_substitute h₁]
      _ = (withoutRules r₂ constants).evaluate b₂ (e.substitute b₁) :=
          evaluate_evaluate_empty h b₂ _
      _ = (withoutRules r₂ constants).evaluate ∅ (e.substitute (b₁.followedBy b₂)) := by
          rw [evaluate_substitute h₂, substitute_followedBy]
      _ = (withoutRules r₂ constants).evaluate (b₁.followedBy b₂) e :=
          (evaluate_substitute h₂ _ e).symm
  refine ⟨⟨returns_evaluate h₁ b₁ e, ?_, hstages⟩, fun hpart => ?_⟩
  · rw [← hstages]
    exact returns_evaluate h₂ b₂ _
  · have hbinding : ∀ x, (b₁.followedBy b₂).find? x = b₂.find? x := by
      intro x
      rw [Binding.find?_followedBy]
      cases hx : b₁.find? x with
      | none => rfl
      | some a => exact (hpart x a hx).symm
    rw [hstages, evaluate_substitute h₂, substitute_congr hbinding, ← evaluate_substitute h₂]

end

/-- Nothing is registered in the first stage. Its binding names a variable of the second, or it is a
part of the second binding. -/
theorem evaluate_stages_at :
    let first := withoutRules ∅ evaluateConstant
    let second := withoutRules .builtins evaluateConstant
    let e := apply .add [var "x", apply .mul [var "y", var "y"]]
    let naming : Binding := Dictionary.ofList [("x", var "y")]
    let value : Binding := Dictionary.ofList [("y", const (.integer 1))]
    let whole : Binding := Dictionary.ofList [("y", const (.integer 1)), ("x", const (.integer 2))]
    (∀ f, (∅ : Registry).contains f = true → Registry.builtins.contains f = true) ∧
      second.evaluate value (first.evaluate naming e) =
        second.evaluate (naming.followedBy value) e ∧
      (∀ x a, value.find? x = some a → whole.find? x = some (a.substitute whole)) ∧
      second.evaluate whole (first.evaluate value e) = second.evaluate whole e := by
  intro first second e naming value whole
  have h : ∀ f, (∅ : Registry).contains f = true → Registry.builtins.contains f = true := by
    intro f hf
    cases hf
  have hpart : ∀ x a, value.find? x = some a → whole.find? x = some (a.substitute whole) := by
    intro x a hx
    change (Dictionary.insert ∅ "y" (const (.integer 1))).find? x = some a at hx
    rw [Dictionary.find?_insert] at hx
    split at hx
    · rename_i hname
      cases hx
      rw [hname]
      rfl
    · cases hx
  exact ⟨h, (evaluate_stages h naming value e).1.2.2, hpart,
    (evaluate_stages h value whole e).2 hpart⟩

end Evaluator

end Residual
