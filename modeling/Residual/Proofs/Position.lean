import Residual.Proofs.NormalForm

/-!
# Positions and the order of folding

A position is a path from the root of an expression, given by the numbers of the operands that it
enters. What a node is evaluated to depends on each operand only through the result of that operand;
so, at any depth, a subexpression may give way to another with the same result. Results evaluate to
themselves under the standard rules, and therefore it does not matter which part of an expression is
evaluated first.

* `Expr.subexprAt?`, `Expr.replaceAt`: the subexpression at a position, and the expression with
  another one there.
* `Evaluator.evaluate_withOperands`: a node depends on its operands through their results.
* `Evaluator.evaluate_replaceAt_congr`: so does an expression on the subexpression at a position.
* `Evaluator.evaluate_part_first`: a part may be evaluated before the whole.
-/

namespace Residual

namespace Expr

/-! ## Positions -/

/-- The subexpression at a position, if the position is in the expression. -/
def subexprAt? : (position : List Nat) → Expr → Option Expr
  | [], e => some e
  | i :: p, e => e.operands[i]?.bind (subexprAt? p)

/-- The expression with another subexpression at a position. -/
def replaceAt : Expr → (position : List Nat) → (new : Expr) → Expr
  | _, [], new => new
  | e, i :: p, new => e.withOperands (e.operands.modify i fun a => a.replaceAt p new)

theorem subexprAt?_cons_eq_some_iff {i : Nat} {p : List Nat} {e a : Expr} :
    e.subexprAt? (i :: p) = some a ↔ ∃ c, e.operands[i]? = some c ∧ c.subexprAt? p = some a := by
  rw [subexprAt?, Option.bind_eq_some_iff]

/-! ## Nodes with other operands -/

theorem isNode_withOperands (e : Expr) (es : List Expr) :
    (e.withOperands es).isNode = e.isNode := by
  unfold withOperands
  split <;> rfl

theorem withOperands_withOperands {e : Expr} {es fs : List Expr}
    (hes : es.length = e.operands.length) (hfs : fs.length = e.operands.length) :
    (e.withOperands es).withOperands fs = e.withOperands fs := by
  cases e with
  | const v => rfl
  | var x => rfl
  | call name args => rfl
  | term l d =>
    match es, fs, hes, hfs with
    | [_, _], [_, _], _, _ => rfl

theorem mapOperands_withOperands {f : Expr → Expr} {e : Expr} {es : List Expr}
    (hes : es.length = e.operands.length) :
    (e.withOperands es).mapOperands f = e.withOperands (es.map f) := by
  rw [mapOperands, operands_withOperands hes, withOperands_withOperands hes]
  rw [List.length_map, hes]

end Expr

namespace Evaluator

open Residual.Expr

/-! ## Operands with the same results -/

theorem onOperands_withOperands {eval next : Expr → Expr} {e : Expr} {es : List Expr}
    (hes : es.map eval = e.operands.map eval) :
    onOperands eval next (e.withOperands es) = onOperands eval next e := by
  have hlength : es.length = e.operands.length := by
    rw [← List.length_map eval, hes, List.length_map]
  have hany : ∀ as : List Expr,
      (as.any fun a => (eval a).isTypeError) = (as.map eval).any isTypeError := by
    intro as
    rw [List.any_map]
    rfl
  rw [onOperands, onOperands, operands_withOperands hlength, mapOperands_withOperands hlength,
    hany, hany, hes, mapOperands]

theorem evaluate_withOperands {ev : Evaluator} (h : ev.NonGrowing) {b : Binding} {e : Expr}
    {es : List Expr} (hes : es.map (ev.evaluate b) = e.operands.map (ev.evaluate b)) :
    ev.evaluate b (e.withOperands es) = ev.evaluate b e := by
  cases he : e.isNode with
  | true =>
    have he' : (e.withOperands es).isNode = true := by rw [isNode_withOperands, he]
    rw [evaluate_node h b he', evaluate_node h b he, onOperands_withOperands hes]
  | false =>
    cases e with
    | const v => rfl
    | var x => rfl
    | call name args => cases he
    | term l d => cases he

/-! ## Parts with the same result -/

/-- An expression depends on the subexpression at a position through the result of it. -/
theorem evaluate_replaceAt_congr {ev : Evaluator} (h : ev.NonGrowing) {b : Binding} {p : List Nat}
    {e a new : Expr} (ha : e.subexprAt? p = some a)
    (hnew : ev.evaluate b new = ev.evaluate b a) :
    ev.evaluate b (e.replaceAt p new) = ev.evaluate b e := by
  induction p generalizing e with
  | nil =>
    cases ha
    exact hnew
  | cons i p ih =>
    obtain ⟨c, hc, ha⟩ := subexprAt?_cons_eq_some_iff.mp ha
    rw [replaceAt]
    refine evaluate_withOperands h (List.ext_getElem? fun j => ?_)
    rw [List.getElem?_map, List.getElem?_map, List.getElem?_modify]
    -- only the operand that the position enters is another one
    by_cases hj : i = j
    · subst hj
      rw [hc]
      simp only [if_true, Option.map_some]
      exact congrArg some (ih ha)
    · simp only [if_neg hj, id_map']

/-- **Order of folding.** Under the standard rules or none, whatever the registry and the evaluator
of constants, the part of an expression at any position may be evaluated first: with the result in
its place, the expression has the same result as before. -/
theorem evaluate_part_first {ev : Evaluator} (hev : ev.HasStandardRules) {p : List Nat}
    {e a : Expr} (ha : e.subexprAt? p = some a) :
    ev.Returns ∅ a (ev.evaluate ∅ a) ∧ ev.Returns ∅ e (ev.evaluate ∅ e) ∧
      ev.Returns ∅ (e.replaceAt p (ev.evaluate ∅ a)) (ev.evaluate ∅ e) ∧
      ev.evaluate ∅ (e.replaceAt p (ev.evaluate ∅ a)) = ev.evaluate ∅ e := by
  have hreturns := returns_evaluate hev.nonGrowing ∅
  have hfix : ev.evaluate ∅ (ev.evaluate ∅ a) = ev.evaluate ∅ a :=
    (isNormal_evaluate hev ∅ a).evaluate_eq hev.nonGrowing
  have hsame := evaluate_replaceAt_congr hev.nonGrowing ha hfix
  refine ⟨hreturns a, hreturns e, ?_, hsame⟩
  rw [← hsame]
  exact hreturns _

/-- The string of a typed term, which is rewritten, in a concatenation that is spliced into
another. -/
theorem evaluate_part_first_at :
    let part := apply .str [term (var "x") (const (.iri Xsd.integer))]
    let e := apply .concat [apply .concat [const (.string "a"), part], const (.string "b")]
    e.subexprAt? [0, 1] = some part ∧
      e.replaceAt [0, 1] (standard.evaluate ∅ part) =
        apply .concat [apply .concat [const (.string "a"),
          typedLiteral (apply .str [var "x"]) Xsd.string], const (.string "b")] ∧
      standard.evaluate ∅ (e.replaceAt [0, 1] (standard.evaluate ∅ part)) =
        standard.evaluate ∅ e := by
  intro part e
  have hat : e.subexprAt? [0, 1] = some part := rfl
  exact ⟨hat, rfl, (evaluate_part_first (Or.inr rfl) hat).2.2.2⟩

end Evaluator

end Residual
