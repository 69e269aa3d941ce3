import Residual.Proofs.Constant
import Residual.Proofs.NormalForm

/-!
# Operands of nested concatenations

Concatenations inside a concatenation are spliced one level at a time, while the expression is
evaluated from its leaves, and what is spliced is evaluated once more. If concatenations cannot be
folded, all this loses no operand, doubles none and keeps their order: the operands of a result are
those of the results of the operands. An operand may itself be evaluated to a concatenation, through
a binding or another rule, and then it gives way to the operands of that one.

* `Expr.leaves`: the operands of a concatenation, those of concatenations inside it included.
* `Expr.flatMap_leaves_spliced`: splicing does not change them.
* `Evaluator.leaves_settled_concat`: a node with evaluated arguments keeps them.
* `Evaluator.evaluate_concat`: what a concatenation is evaluated to.
* `Evaluator.leaves_evaluate`: the operands of a result.
-/

namespace Residual

open Residual.Expr Rule

/-! ## Operands through nested concatenations -/

namespace Expr

mutual

/-- The operands of a concatenation from left to right, with those of each concatenation among them
in its place, at every depth. Any other expression is its own single operand. -/
def leaves : Expr → List Expr
  | call name args =>
    if name = some Operator.concat.name then leavesOfAll args else [call name args]
  | e => [e]

/-- The operands of all expressions of a list, one after the other. -/
def leavesOfAll : List Expr → List Expr
  | [] => []
  | e :: es => leaves e ++ leavesOfAll es

end

theorem leavesOfAll_eq_flatMap (es : List Expr) : leavesOfAll es = es.flatMap leaves := by
  induction es with
  | nil => rfl
  | cons e es ih => rw [leavesOfAll, ih, List.flatMap_cons]

theorem leaves_concat (args : List Expr) : (apply .concat args).leaves = args.flatMap leaves := by
  rw [apply, leaves, if_pos rfl, leavesOfAll_eq_flatMap]

theorem leaves_of_concatArgs?_eq_none {e : Expr} (h : concatArgs? e = none) : e.leaves = [e] := by
  cases e with
  | const v => rfl
  | var x => rfl
  | call name args =>
    have hname : name ≠ some Operator.concat.name := by
      rintro rfl
      rw [concatArgs?, if_pos rfl] at h
      cases h
    rw [leaves, if_neg hname]
  | term l d => rfl

/-- Induction over nested concatenations. -/
@[elab_as_elim]
theorem concatInduction {motive : Expr → Prop}
    (single : ∀ e, concatArgs? e = none → motive e)
    (concat : ∀ args, (∀ a ∈ args, motive a) → motive (apply .concat args)) (e : Expr) :
    motive e := by
  induction e using nodeInduction with
  | const v => exact single _ rfl
  | var x => exact single _ rfl
  | node e _ ih =>
    cases hargs : concatArgs? e with
    | none => exact single e hargs
    | some args =>
      obtain rfl := concatArgs?_eq_some_iff.mp hargs
      exact concat args ih

/-- A concatenation among the arguments has the operands of its own arguments, which take its
place. -/
theorem flatMap_leaves_spliced (args : List Expr) :
    (spliced args).flatMap leaves = args.flatMap leaves := by
  rw [spliced, List.flatMap_assoc]
  refine List.flatMap_congr fun a _ => ?_
  cases hargs : concatArgs? a with
  | none => rw [Option.getD_none, List.flatMap_singleton]
  | some inner => rw [Option.getD_some, concatArgs?_eq_some_iff.mp hargs, leaves_concat]

end Expr

/-- A concatenation is rewritten in one way only. -/
theorem StandardStep.eq_spliced {args : List Expr} {e' : Expr}
    (h : StandardStep (apply .concat args) e') : e' = apply .concat (spliced args) := by
  generalize he : apply .concat args = e at h
  cases h with
  | str l d => simp [apply, Operator.name] at he
  | datatypeName l name => simp [apply, Operator.name] at he
  | datatype l d hd => simp [apply, Operator.name] at he
  | concat args' hinner =>
    cases he
    rfl

/-- An operator other than a comparison may be folded only if it is registered. -/
theorem Registry.admits_name {r : Registry} {op : Operator} (h : op.isComparison = false) :
    r.admits (some op.name) = r.contains op.name := by
  rw [admits, isKnown, Operator.ofName?_eq_some_iff.mpr rfl, Option.any_some, h, Bool.false_or,
    beq_eq_false_iff_ne.mpr op.name_ne_empty, Bool.false_or]

namespace Evaluator

/-! ## Concatenations that cannot be folded -/

section

variable {ev : Evaluator} (hev : ev.HasStandardRules)
  (hconcat : ev.registry.contains Operator.concat.name = false)

include hconcat

theorem folded_concat (args : List Expr) : ev.folded (apply .concat args) = apply .concat args := by
  have hname : (apply .concat args).identifier? = some Operator.concat.name :=
    identifierOf_eq_some_iff.mpr ⟨rfl, Operator.name_ne_empty .concat⟩
  refine if_neg fun hfold => ?_
  have hadmits := (isFoldable_iff.mp hfold).2.2
  rw [hname, Registry.admits_name rfl, hconcat] at hadmits
  cases hadmits

include hev

/-- A concatenation of evaluated arguments remains one, with the same operands. -/
theorem leaves_settled_concat {args : List Expr}
    (hargs : ∀ a ∈ args, ev.IsNormal a ∧ a ≠ typeError) :
    ∃ args', ev.settled (ev.evaluate ∅) (apply .concat args) = apply .concat args' ∧
      args'.flatMap leaves = args.flatMap leaves := by
  unfold settled
  cases hrule : ev.rewritten? (apply .concat args) with
  | none => exact ⟨args, folded_concat hconcat args, rfl⟩
  | some e' =>
    dsimp only
    obtain rfl := (hev.step hrule).eq_spliced
    have hspliced : ∀ a ∈ (apply .concat (spliced args)).operands, ev.IsNormal a ∧ a ≠ typeError :=
      spliced_isNormal hargs
    rw [onOperands_of_isNormal hev hspliced, folded_concat hconcat]
    exact ⟨spliced args, rfl, flatMap_leaves_spliced args⟩

/-- A concatenation is evaluated to the type error because of an argument, or else to a
concatenation that has the operands of the results of its arguments. -/
theorem evaluate_concat (b : Binding) (args : List Expr) :
    (∃ a ∈ args, ev.evaluate b a = typeError ∧ ev.evaluate b (apply .concat args) = typeError) ∨
      (∀ a ∈ args, ev.evaluate b a ≠ typeError) ∧
        ∃ args', ev.evaluate b (apply .concat args) = apply .concat args' ∧
          args'.flatMap leaves = args.flatMap fun a => (ev.evaluate b a).leaves := by
  rw [evaluate_node hev.nonGrowing b rfl]
  rcases onOperands_cases (ev.evaluate b) (ev.settled (ev.evaluate ∅)) (apply .concat args) with
    htype | ⟨hno, heq⟩
  · exact Or.inl htype
  · have hargs : ∀ a ∈ args.map (ev.evaluate b), ev.IsNormal a ∧ a ≠ typeError :=
      List.forall_mem_map.mpr fun a ha => ⟨isNormal_evaluate hev b a, hno a ha⟩
    obtain ⟨args', hsettled, hleaves⟩ := leaves_settled_concat hev hconcat hargs
    refine Or.inr ⟨hno, args', heq.trans hsettled, ?_⟩
    rw [hleaves, List.flatMap_map]

theorem evaluate_eq_typeError_iff_leaves (b : Binding) (e : Expr) :
    ev.evaluate b e = typeError ↔ ∃ x ∈ e.leaves, ev.evaluate b x = typeError := by
  induction e using concatInduction with
  | single e he => simp [leaves_of_concatArgs?_eq_none he]
  | concat args ih =>
    have hargs : (∃ x ∈ (apply .concat args).leaves, ev.evaluate b x = typeError) ↔
        ∃ a ∈ args, ev.evaluate b a = typeError := by
      rw [leaves_concat]
      constructor
      · rintro ⟨x, hx, htype⟩
        obtain ⟨a, ha, hx⟩ := List.mem_flatMap.mp hx
        exact ⟨a, ha, (ih a ha).mpr ⟨x, hx, htype⟩⟩
      · rintro ⟨a, ha, htype⟩
        obtain ⟨x, hx, htype⟩ := (ih a ha).mp htype
        exact ⟨x, List.mem_flatMap.mpr ⟨a, ha, hx⟩, htype⟩
    rw [hargs]
    rcases evaluate_concat hev hconcat b args with ⟨a, ha, htype, heq⟩ | ⟨hno, args', heq, -⟩
    · exact iff_of_true heq ⟨a, ha, htype⟩
    · refine iff_of_false ?_ fun ⟨a, ha, htype⟩ => hno a ha htype
      rw [heq]
      nofun

theorem leaves_evaluate_of_ne (b : Binding) {e : Expr} (h : ev.evaluate b e ≠ typeError) :
    (ev.evaluate b e).leaves = e.leaves.flatMap fun x => (ev.evaluate b x).leaves := by
  induction e using concatInduction with
  | single e he => rw [leaves_of_concatArgs?_eq_none he, List.flatMap_singleton]
  | concat args ih =>
    rcases evaluate_concat hev hconcat b args with ⟨-, -, -, heq⟩ | ⟨hno, args', heq, hleaves⟩
    · exact absurd heq h
    · rw [heq, leaves_concat, leaves_concat, hleaves, List.flatMap_assoc]
      exact List.flatMap_congr fun a ha => ih a ha (hno a ha)

/-- **Flattening.** If `concat` is not registered, then under the standard rules or none, whatever
the evaluator of constants and the binding, the operands of a result are those of the results of the
operands, in order, each as often as before; unless the result is the type error, which it is only
if an operand is evaluated to it. -/
theorem leaves_evaluate (b : Binding) (e : Expr) :
    ev.Returns b e (ev.evaluate b e) ∧
      (ev.evaluate b e = typeError ∨
        (ev.evaluate b e).leaves = e.leaves.flatMap fun x => (ev.evaluate b x).leaves) ∧
      (ev.evaluate b e = typeError ↔ ∃ x ∈ e.leaves, ev.evaluate b x = typeError) := by
  refine ⟨returns_evaluate hev.nonGrowing b e, ?_, evaluate_eq_typeError_iff_leaves hev hconcat b e⟩
  by_cases htype : ev.evaluate b e = typeError
  · exact Or.inl htype
  · exact Or.inr (leaves_evaluate_of_ne hev hconcat b htype)

end

/-- Of the operands, one is bound to a concatenation, and one is a datatype that is a concatenation.
An empty concatenation has no operands. -/
theorem leaves_evaluate_at :
    let ev : Evaluator := { registry := .ofList ["ucase"], rules := some .standard }
    let b : Binding := Dictionary.ofList [("x", apply .concat [var "x", const (.string "a")])]
    let slot := apply .datatype [term (var "z") (apply .concat [const (.string "b"), var "y"])]
    let e := apply .concat [apply .concat [], var "x",
      apply .concat [apply .uCase [const (.string "c")], apply .concat [slot]]]
    let r := apply .concat [var "x", const (.string "a"), const (.string "C"), const (.string "b"),
      var "y"]
    (ev.HasStandardRules ∧ ev.registry.contains Operator.concat.name = false) ∧
      e.leaves = [var "x", apply .uCase [const (.string "c")], slot] ∧ ev.evaluate b e = r ∧
      r.leaves = e.leaves.flatMap fun x => (ev.evaluate b x).leaves := by
  intro ev b slot e r
  have hev : ev.HasStandardRules := Or.inr rfl
  have hconcat : ev.registry.contains Operator.concat.name = false := rfl
  have hr : ev.evaluate b e = r := by decide +kernel
  have hne : ev.evaluate b e ≠ typeError := by
    rw [hr]
    exact Expr.noConfusion
  have hleaves := (leaves_evaluate hev hconcat b e).2.1.resolve_left hne
  rw [hr] at hleaves
  exact ⟨⟨hev, hconcat⟩, by decide +kernel, hr, hleaves⟩

end Evaluator

end Residual
