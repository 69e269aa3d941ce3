import Residual.Proofs.Runs
import Residual.Proofs.Staging
import Residual.Proofs.NormalForm

/-!
# What evaluation leaves

Whatever the rules are, a result has nothing in it that could be folded: the rules only decide which
nodes are there, and every node goes through folding after its operands have been evaluated. So
results are normal for the evaluator without the rules, the type error is not inside them, and each
node that is left has a reason for it. Under the standard rules, no node is left that a rule would
rewrite either.

* `Run.Ensures`: what holds of every result of a run.
* `Evaluator.ensures_run`: a property of constants and variables that folding brings about.
* `Evaluator.isNormal_of_returns`: results are normal without the rules.
* `Evaluator.residue_of_returns`: the reasons why nodes are left.
* `Evaluator.evaluate_leaves_no_redex`: nothing is left to the standard rules.
-/

namespace Residual

open Residual.Expr

/-! ## Every result of a run -/

namespace Run

variable {α : Type}

/-- Every result of a run satisfies `P`. -/
def Ensures (x : Run α) (P : α → Prop) : Prop := ∀ a, x.result? = some a → P a

theorem ensures_iff_keeps {x : Run α} {P : α → Prop} :
    x.Ensures P ↔ x.Keeps P fun _ => True := by
  constructor
  · intro h a asked ha
    exact ⟨h a (Option.map_eq_some_iff.mpr ⟨_, ha, rfl⟩), fun _ _ => trivial⟩
  · intro h a ha
    obtain ⟨⟨r, asked⟩, hr, rfl⟩ := Option.map_eq_some_iff.mp ha
    exact (h r asked hr).1

theorem ensures_stop (P : α → Prop) : (stop : Run α).Ensures P := ensures_iff_keeps.mpr keeps_stop

theorem ensures_pure {P : α → Prop} {a : α} (h : P a) : (pure a : Run α).Ensures P :=
  ensures_iff_keeps.mpr (keeps_pure h)

end Run

namespace Evaluator

open Run

/-! ## Results of evaluation under any rules -/

section

variable {ev : Evaluator} {P : Expr → Prop} (hconst : ∀ v, P (const v)) (hvar : ∀ x, P (var x))
  (hnode : ∀ e, e.isNode = true → (∀ a ∈ e.operands, P a ∧ a ≠ typeError) → P (ev.folded e))

include hconst hvar hnode

theorem ensures_fold {e : Expr} (he : ∀ a ∈ e.operands, P a ∧ a ≠ typeError) :
    (ev.fold e).Ensures P := by
  intro r hr
  rw [fold_result] at hr
  cases hr
  cases hn : e.isNode with
  | true => exact hnode e hn he
  | false =>
    rw [folded_of_not_isNode ev hn]
    cases e with
    | const v => exact hconst v
    | var x => exact hvar x
    | call name args => cases hn
    | term l d => cases hn

theorem ensures_fold_withOperands {e : Expr} {vs : List Expr}
    (h : List.Forall₂ (fun _ v => P v ∧ v ≠ typeError) e.operands vs) :
    (ev.fold (e.withOperands vs)).Ensures P := by
  refine ensures_fold hconst hvar hnode fun v hv => ?_
  obtain ⟨_, -, hresult⟩ := exists_operand_of_forall₂ h hv
  exact hresult

theorem ensures_evaluateNode {outer inner : Expr → Run Expr} (ho : ∀ e, (outer e).Ensures P)
    (hi : ∀ e, (inner e).Ensures P) (e : Expr) : (ev.evaluateNode outer inner e).Ensures P := by
  have hfold : ∀ (e : Expr) (vs : List Expr),
      List.Forall₂ (fun _ v => P v ∧ v ≠ typeError) e.operands vs →
        (ev.fold (e.withOperands vs)).Keeps P fun _ => True :=
    fun e vs hvs => ensures_iff_keeps.mp (ensures_fold_withOperands hconst hvar hnode hvs)
  refine ensures_iff_keeps.mpr ?_
  refine keeps_evaluateNode (fun a _ => ensures_iff_keeps.mp (ho a)) (hconst _) fun vs hvs => ?_
  -- nothing is known of the answer of the rules; its operands are evaluated in any case
  exact keeps_settle (fun _ _ => trivial) (fun _ _ a _ => ensures_iff_keeps.mp (hi a)) (hconst _)
    (hfold e vs hvs) hfold

/-- What holds of constants and variables, and of what folding makes of every node whose operands
have it and are not the type error, holds of all results, whatever the rules are. -/
theorem ensures_run (depth : Nat) (b : Binding) (e : Expr) : (ev.run depth b e).Ensures P := by
  induction depth generalizing b e with
  | zero => exact ensures_stop P
  | succ depth ih =>
    cases e with
    | const v => exact ensures_pure (hconst v)
    | var x =>
      rw [run]
      split
      · exact ih ∅ _
      · exact ensures_pure (hvar x)
    | call name args => exact ensures_evaluateNode hconst hvar hnode (ih b) (ih ∅) _
    | term l d => exact ensures_evaluateNode hconst hvar hnode (ih b) (ih ∅) _

end

/-! ## Reasons why nodes are left -/

/-- Whatever the rules are, folding is finished in every result. -/
theorem isNormal_of_returns {ev : Evaluator} {b : Binding} {e r : Expr} (h : ev.Returns b e r) :
    (withoutRules ev.registry ev.constants).IsNormal r := by
  obtain ⟨depth, hr⟩ := h
  refine ensures_run IsNormal.const IsNormal.var (fun n hn hoperands => ?_) depth b e r hr
  have hfolded : (withoutRules ev.registry ev.constants).IsNormal
      ((withoutRules ev.registry ev.constants).folded n) :=
    isNormal_folded hn (fun a ha => (hoperands a ha).1) (fun a ha => (hoperands a ha).2) rfl
  exact hfolded

namespace IsNormal

variable {ev : Evaluator} {n r : Expr}

theorem of_occursIn (h : ev.IsNormal r) (hn : n.OccursIn r) :
    ev.IsNormal n ∧ (n = r ∨ n ≠ typeError) := by
  induction hn with
  | here => exact ⟨h, Or.inl rfl⟩
  | inside hc _ ih =>
    obtain ⟨hnormal, hno⟩ := h.operands _ hc
    obtain ⟨hn, heq | hne⟩ := ih hnormal
    · exact ⟨hn, Or.inr (heq ▸ hno)⟩
    · exact ⟨hn, Or.inr hne⟩

/-- A node is left because of an open operand, because its identifier is not admitted, or because
its value cannot be computed. -/
theorem reason (h : ev.IsNormal n) (hn : n.isNode = true) :
    (∃ a ∈ n.operands, a.isConst = false) ∨ ev.registry.admits n.identifier? = false ∨
      ∃ err, ev.constants n = .error err ∧ err.isNotComparable = false := by
  by_cases hopen : ∃ a ∈ n.operands, a.isConst = false
  · exact Or.inl hopen
  cases hadmits : ev.registry.admits n.identifier? with
  | false => exact Or.inr (Or.inl rfl)
  | true =>
    have hfold : ev.isFoldable n = true := by
      refine isFoldable_iff.mpr ⟨hn, fun a ha => ?_, hadmits⟩
      exact eq_true_of_ne_false fun hfalse => hopen ⟨a, ha, hfalse⟩
    have hself := h.folded_eq
    rw [folded, if_pos hfold] at hself
    cases hvalue : ev.constants n with
    | ok v =>
      rw [hvalue] at hself
      rw [← hself] at hn
      cases hn
    | error err =>
      refine Or.inr (Or.inr ⟨err, rfl, Bool.eq_false_iff.mpr fun hcompare => ?_⟩)
      rw [hvalue, foldedTo, if_pos hcompare] at hself
      rw [← hself] at hn
      cases hn

end IsNormal

/-- **Residue.** Whatever the registry, the rules, the evaluator of constants and the binding, the
type error is nowhere inside a result, and every node in it, at any depth, has an operand that is no
constant, or an identifier that is not admitted, or a value that cannot be computed. -/
theorem residue_of_returns {ev : Evaluator} {b : Binding} {e r : Expr} (h : ev.Returns b e r) :
    (typeError.OccursIn r → r = typeError) ∧
      ∀ n, n.OccursIn r → n.isNode = true →
        (∃ a ∈ n.operands, a.isConst = false) ∨ ev.registry.admits n.identifier? = false ∨
          ∃ err, ev.constants n = .error err ∧ err.isNotComparable = false := by
  have hnormal := isNormal_of_returns h
  refine ⟨fun htype => ?_, fun n hn hnode => ?_⟩
  · rcases (hnormal.of_occursIn htype).2 with heq | hne
    · exact heq.symm
    · exact absurd rfl hne
  · exact (hnormal.of_occursIn hn).1.reason hnode

/-- A rule that puts calls of `concat` and of an unknown function in place of a call: the first is
folded, the second stays. -/
theorem residue_of_returns_at :
    let ev : Evaluator := {
      registry := .builtins
      rules := some (.ofList [("f", fun c =>
        some (apply .concat [apply .concat c.args, call (some "g") c.args]))]) }
    let b : Binding := Dictionary.ofList [("x", const (.string "b"))]
    let r := apply .concat [const (.string "ab"),
      call (some "g") [const (.string "a"), const (.string "b")]]
    ev.Returns b (call (some "f") [const (.string "a"), var "x"]) r ∧
      ¬ typeError.OccursIn r ∧
      ∀ n, n.OccursIn r → n.isNode = true →
        (∃ a ∈ n.operands, a.isConst = false) ∨ ev.registry.admits n.identifier? = false ∨
          ∃ err, ev.constants n = .error err ∧ err.isNotComparable = false := by
  intro ev b r
  have h : ev.Returns b (call (some "f") [const (.string "a"), var "x"]) r := ⟨3, rfl⟩
  refine ⟨h, fun htype => ?_, (residue_of_returns h).2⟩
  have heq := (residue_of_returns h).1 htype
  simp [r, apply, typeError] at heq

/-! ## The standard rules -/

/-- The evaluator with the standard rules. -/
def withStandardRules (r : Registry) (constants : Expr → Except FoldError Value) : Evaluator where
  registry := r
  rules := some .standard
  constants := constants

/-- **No redex.** Whatever the registry, the evaluator of constants and the binding, nothing is left
to the standard rules in a result: no string and no datatype of a typed term, and no concatenation
among the arguments of another, at any depth. -/
theorem evaluate_leaves_no_redex (r : Registry) (constants : Expr → Except FoldError Value)
    (b : Binding) (e : Expr) :
    (withStandardRules r constants).Returns b e ((withStandardRules r constants).evaluate b e) ∧
      ∀ n, n.OccursIn ((withStandardRules r constants).evaluate b e) →
        RuleTable.standard.tryRewrite n = none ∧
          (∀ l d, n ≠ apply .str [term l d]) ∧ (∀ l d, n ≠ apply .datatype [term l d]) ∧
          ∀ args inner, n = apply .concat args → apply .concat inner ∉ args := by
  have hev : (withStandardRules r constants).HasStandardRules := Or.inr rfl
  refine ⟨returns_evaluate hev.nonGrowing b e, fun n hn => ?_⟩
  have hnormal := ((isNormal_evaluate hev b e).of_occursIn hn).1
  have hnone : RuleTable.standard.tryRewrite n = none := by
    cases hnode : n.isNode with
    | true => exact hnormal.rewritten?_eq_none hnode
    | false =>
      cases n with
      | const v => rfl
      | var x => rfl
      | call name args => cases hnode
      | term l d => cases hnode
  have hstep : ∀ e', ¬ StandardStep n e' := by
    intro e' h
    rw [RuleTable.tryRewrite_standard.mpr h] at hnone
    cases hnone
  refine ⟨hnone, ?_, ?_, ?_⟩
  · rintro l d rfl
    exact hstep _ (.str l d)
  · rintro l d rfl
    exact hstep _ (.datatype_slotForm l d)
  · rintro args inner rfl hinner
    exact hstep _ (.concat args ⟨inner, hinner⟩)

/-- A binding brings in a concatenation with the string of a typed term. -/
theorem evaluate_leaves_no_redex_at :
    let r := (withStandardRules .builtins evaluateConstant).evaluate
      (Dictionary.ofList [("x",
        apply .concat [apply .str [term (var "y") (var "z")], const (.string "b")])])
      (apply .concat [var "x", const (.string "c")])
    r = apply .concat [typedLiteral (apply .str [var "y"]) Xsd.string, const (.string "b"),
        const (.string "c")] ∧
      RuleTable.standard.tryRewrite r = none :=
  ⟨rfl, ((evaluate_leaves_no_redex _ _ _ _).2 _ .here).1⟩

end Evaluator

end Residual
