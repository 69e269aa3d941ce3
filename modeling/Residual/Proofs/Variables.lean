import Residual.Proofs.Origin

/-!
# Variables of results

Evaluation brings in no variable. The standard rules copy, splice and drop operands, and folding
gives a constant, so that a result has at most the variables of the expression after substitution.
A bound expression is evaluated without the binding: its own variables stay, even those that are
bound as well.

* `Expr.isGround_iff`: an expression is ground if no variable occurs in it.
* `Expr.var_occursIn_substitute_iff`: the variables that a substitution leaves.
* `Evaluator.inherited_var`: neither rules nor folding bring in a variable.
* `Evaluator.variables_of_evaluate`: where the variables of a result come from.
-/

namespace Residual

open Residual.Expr

/-! ## Variables of expressions -/

namespace Expr

variable {e : Expr}

theorem var_occursIn_node {x : String} (he : e.isNode = true) :
    (var x).OccursIn e ↔ ∃ a ∈ e.operands, (var x).OccursIn a := by
  rw [occursIn_iff, or_iff_right]
  rintro rfl
  cases he

theorem var_occursIn_mapOperands {f : Expr → Expr} {x : String} (he : e.isNode = true) :
    (var x).OccursIn (e.mapOperands f) ↔ ∃ a ∈ e.operands, (var x).OccursIn (f a) := by
  have he' : (e.mapOperands f).isNode = true := by rwa [isNode_mapOperands]
  rw [var_occursIn_node he', operands_mapOperands]
  constructor
  · rintro ⟨c, hc, hx⟩
    obtain ⟨a, ha, rfl⟩ := List.mem_map.mp hc
    exact ⟨a, ha, hx⟩
  · rintro ⟨a, ha, hx⟩
    exact ⟨f a, List.mem_map_of_mem ha, hx⟩

theorem isGround_node (he : e.isNode = true) :
    e.isGround = true ↔ ∀ a ∈ e.operands, a.isGround = true := by
  cases e with
  | const v => cases he
  | var x => cases he
  | call name args => rw [isGround, allGround_eq_all, List.all_eq_true, operands]
  | term l d => simp [isGround, operands]

theorem isGround_iff : e.isGround = true ↔ ∀ x, ¬ (var x).OccursIn e := by
  induction e using nodeInduction with
  | const v => simp [isGround]
  | var x =>
    constructor
    · intro h
      cases h
    · intro h
      exact absurd .here (h x)
  | node e he ih =>
    rw [isGround_node he]
    constructor
    · intro h x hx
      obtain ⟨a, ha, hx⟩ := (var_occursIn_node he).mp hx
      exact (ih a ha).mp (h a ha) x hx
    · intro h a ha
      exact (ih a ha).mpr fun x hx => h x (.inside ha hx)

/-- A substitution leaves the variables that it does not replace, and those of the expressions that
it puts in. -/
theorem var_occursIn_substitute_iff {b : Binding} {x : String} :
    (var x).OccursIn (e.substitute b) ↔
      ((var x).OccursIn e ∧ b.find? x = none) ∨
        ∃ y a, (var y).OccursIn e ∧ b.find? y = some a ∧ (var x).OccursIn a := by
  induction e using nodeInduction with
  | const v => simp [substitute_const]
  | var z =>
    simp only [substitute_var, occursIn_var, var.injEq]
    cases hz : b.find? z with
    | none =>
      constructor
      · intro h
        obtain rfl := var.inj (occursIn_var.mp h)
        exact Or.inl ⟨rfl, hz⟩
      · rintro (⟨rfl, -⟩ | ⟨y, a, rfl, ha, -⟩)
        · exact .here
        · rw [hz] at ha
          cases ha
    | some c =>
      constructor
      · intro h
        exact Or.inr ⟨z, c, rfl, hz, h⟩
      · rintro (⟨rfl, hnone⟩ | ⟨y, a, rfl, ha, hx⟩)
        · rw [hz] at hnone
          cases hnone
        · rw [hz] at ha
          cases ha
          exact hx
  | node e he ih =>
    rw [substitute_node he, var_occursIn_mapOperands he]
    simp only [var_occursIn_node he]
    constructor
    · rintro ⟨c, hc, hx⟩
      rcases (ih c hc).mp hx with ⟨hx, hnone⟩ | ⟨y, a, hy, ha, hx⟩
      · exact Or.inl ⟨⟨c, hc, hx⟩, hnone⟩
      · exact Or.inr ⟨y, a, ⟨c, hc, hy⟩, ha, hx⟩
    · rintro (⟨⟨c, hc, hx⟩, hnone⟩ | ⟨y, a, ⟨c, hc, hy⟩, ha, hx⟩)
      · exact ⟨c, hc, (ih c hc).mpr (Or.inl ⟨hx, hnone⟩)⟩
      · exact ⟨c, hc, (ih c hc).mpr (Or.inr ⟨y, a, hy, ha, hx⟩)⟩

end Expr

namespace Evaluator

variable {ev : Evaluator}

/-! ## Variables of results -/

theorem inherited_var (ev : Evaluator) (x : String) : ev.Inherited fun n => n = var x where
  call := nofun
  term _ _ := nofun
  string := nofun
  iri _ := nofun
  folded := by
    intro e h
    rcases ev.folded_cases e with ⟨v, hv⟩ | hself
    · rw [hv] at h
      cases has_const.mp h
    · rwa [hself] at h

/-- Without a binding, the variables of a result are variables of the expression. -/
theorem var_occursIn_of_evaluate_empty (hev : ev.HasStandardRules) {e : Expr} {x : String}
    (h : (var x).OccursIn (ev.evaluate ∅ e)) : (var x).OccursIn e := by
  obtain ⟨n, hn, rfl⟩ := (ev.inherited_var x).of_evaluate_empty hev ⟨var x, h, rfl⟩
  exact hn

/-- **Variables.** Under the standard rules or none, whatever the registry and the evaluator of
constants, a variable of a result occurs in the expression and is not bound, or it occurs in an
expression that is bound to a variable of the expression. So the result is ground if all variables
of the expression are bound to ground expressions. -/
theorem variables_of_evaluate (hev : ev.HasStandardRules) (b : Binding) (e : Expr) :
    ev.Returns b e (ev.evaluate b e) ∧
      (∀ x, (var x).OccursIn (ev.evaluate b e) →
        ((var x).OccursIn e ∧ b.find? x = none) ∨
          ∃ y a, (var y).OccursIn e ∧ b.find? y = some a ∧ (var x).OccursIn a) ∧
      ((∀ x, (var x).OccursIn e → ∃ a, b.find? x = some a ∧ a.isGround = true) →
        (ev.evaluate b e).isGround = true) := by
  have horigin : ∀ x, (var x).OccursIn (ev.evaluate b e) →
      ((var x).OccursIn e ∧ b.find? x = none) ∨
        ∃ y a, (var y).OccursIn e ∧ b.find? y = some a ∧ (var x).OccursIn a := by
    intro x hx
    rw [evaluate_substitute hev.nonGrowing] at hx
    exact var_occursIn_substitute_iff.mp (var_occursIn_of_evaluate_empty hev hx)
  refine ⟨returns_evaluate hev.nonGrowing b e, horigin, fun hground => ?_⟩
  refine isGround_iff.mpr fun x hx => ?_
  rcases horigin x hx with ⟨hx, hnone⟩ | ⟨y, a, hy, ha, hx⟩
  · obtain ⟨a, ha, -⟩ := hground x hx
    rw [hnone] at ha
    cases ha
  · obtain ⟨a', ha', hclosed⟩ := hground y hy
    rw [ha] at ha'
    cases ha'
    exact isGround_iff.mp hclosed x hx

/-- The variable `z` is bound to a constant, and yet it is in the result: the expression bound to
`x` brings it in after the typed term of `z` is gone. With `x` bound to a call that cannot be folded,
the result is ground. -/
theorem variables_of_evaluate_at :
    let e := apply .concat [apply .concat [var "x", const (.string "a")],
      apply .datatype [term (var "z") (var "w")]]
    let b : Binding := Dictionary.ofList [("x", apply .uCase [var "z"]), ("z", const (.string "5"))]
    let b' : Binding := Dictionary.ofList [("x", call (some "f") []), ("z", const (.string "5")),
      ("w", const (.string Xsd.integer))]
    standard.evaluate b e =
        apply .concat [apply .uCase [var "z"], const (.string "a"), var "w"] ∧
      (∃ y a, (var y).OccursIn e ∧ b.find? y = some a ∧ (var "z").OccursIn a) ∧
      (∀ x, (var x).OccursIn e → ∃ a, b'.find? x = some a ∧ a.isGround = true) ∧
      (standard.evaluate b' e).isGround = true := by
  intro e b b'
  have hev : standard.HasStandardRules := Or.inr rfl
  have hresult : standard.evaluate b e =
      apply .concat [apply .uCase [var "z"], const (.string "a"), var "w"] := rfl
  have hz : (var "z").OccursIn (standard.evaluate b e) := by simp [hresult, apply]
  have hground : ∀ x, (var x).OccursIn e → ∃ a, b'.find? x = some a ∧ a.isGround = true := by
    intro x hx
    have hx : x = "x" ∨ x = "z" ∨ x = "w" := by simpa [e, apply] using hx
    rcases hx with rfl | rfl | rfl <;> exact ⟨_, rfl, rfl⟩
  refine ⟨hresult, ?_, hground, (variables_of_evaluate hev b' e).2.2 hground⟩
  rcases (variables_of_evaluate hev b e).2.1 "z" hz with ⟨-, hnone⟩ | horigin
  · cases hnone
  · exact horigin

end Evaluator

end Residual
