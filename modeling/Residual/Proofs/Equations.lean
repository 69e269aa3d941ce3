import Residual.Proofs.Binding

/-!
# The equations of evaluation

Rules that never make a node larger cannot keep an evaluation going: the operands of the node that
a rule gives are smaller than the node that it rewrote. For such rules `Evaluator.evaluate` always
has the depth that it needs, and it is a function with one equation for each kind of expression.

* `Evaluator.NonGrowing`: rules that never make a node larger.
* `Evaluator.returns_evaluate`, `Evaluator.size_evaluate_le`: every evaluation ends, with a result
  that is not larger than the expression after substitution.
* `Evaluator.evaluate_const`, `Evaluator.evaluate_var`, `Evaluator.evaluate_node`: the equations.
* `Evaluator.unboundInduction`: induction along evaluations without a binding.
* `Evaluator.evaluate_substitute`: a binding is a substitution made beforehand.
* `Evaluator.NonIncreasing`, `Evaluator.NonIncreasing.evaluate_empty_le`: measures that no step of
  an evaluation increases, and what follows for results.
-/

namespace Residual.Evaluator

open Residual.Expr Run

/-! ## Evaluating a node without regard to depth -/

/-- What the rules put in place of a node. -/
def rewritten? (ev : Evaluator) (e : Expr) : Option Expr := ev.rules.bind (·.tryRewrite e)

/-- A node after folding. -/
def folded (ev : Evaluator) (e : Expr) : Expr :=
  if ev.isFoldable e then foldedTo e (ev.constants e) else e

/-- Goes on with a node whose operands are evaluated, unless one of them is the type error. -/
def onOperands (eval next : Expr → Expr) (e : Expr) : Expr :=
  if e.operands.any fun a => (eval a).isTypeError then typeError else next (e.mapOperands eval)

/-- A node with evaluated operands, after rewriting and folding. -/
def settled (ev : Evaluator) (eval : Expr → Expr) (e : Expr) : Expr :=
  match ev.rewritten? e with
  | none => ev.folded e
  | some e' => onOperands eval ev.folded e'

theorem onOperands_of_typeError {eval next : Expr → Expr} {a e : Expr} (ha : a ∈ e.operands)
    (h : eval a = typeError) : onOperands eval next e = typeError := by
  refine if_pos (List.any_eq_true.mpr ⟨a, ha, ?_⟩)
  rw [h]
  rfl

theorem onOperands_of_noTypeError {eval next : Expr → Expr} {e : Expr}
    (h : ∀ a ∈ e.operands, eval a ≠ typeError) :
    onOperands eval next e = next (e.mapOperands eval) := by
  refine if_neg fun hany => ?_
  obtain ⟨a, ha, htype⟩ := List.any_eq_true.mp hany
  exact h a ha (isTypeError_iff.mp htype)

theorem onOperands_congr {f g next : Expr → Expr} {e : Expr} (h : ∀ a ∈ e.operands, f a = g a) :
    onOperands f next e = onOperands g next e := by
  rw [onOperands, onOperands, mapOperands_congr h]
  congr 2
  rw [Bool.eq_iff_iff, List.any_eq_true, List.any_eq_true]
  exact exists_congr fun a => and_congr_right fun ha => by rw [h a ha]

theorem onOperands_cases (eval next : Expr → Expr) (e : Expr) :
    (∃ a ∈ e.operands, eval a = typeError ∧ onOperands eval next e = typeError) ∨
      ((∀ a ∈ e.operands, eval a ≠ typeError) ∧
        onOperands eval next e = next (e.mapOperands eval)) := by
  by_cases h : ∃ a ∈ e.operands, eval a = typeError
  · obtain ⟨a, ha, htype⟩ := h
    exact Or.inl ⟨a, ha, htype, onOperands_of_typeError ha htype⟩
  · have hno : ∀ a ∈ e.operands, eval a ≠ typeError := fun a ha htype => h ⟨a, ha, htype⟩
    exact Or.inr ⟨hno, onOperands_of_noTypeError hno⟩

/-- A property of all results of a node: of the type error, and of what comes after operands that
are all evaluated without it. -/
theorem onOperands_induction {P : Expr → Prop} {eval next : Expr → Expr} {e : Expr}
    (hfail : P typeError)
    (h : (∀ a ∈ e.operands, eval a ≠ typeError) → P (next (e.mapOperands eval))) :
    P (onOperands eval next e) := by
  rcases onOperands_cases eval next e with ⟨a, -, -, heq⟩ | ⟨hno, heq⟩
  · rw [heq]
    exact hfail
  · rw [heq]
    exact h hno

theorem isFoldable_iff {ev : Evaluator} {e : Expr} :
    ev.isFoldable e = true ↔ e.isNode = true ∧ (∀ a ∈ e.operands, a.isConst = true) ∧
      ev.registry.admits e.identifier? = true := by
  simp only [isFoldable, Bool.and_eq_true, List.all_eq_true, and_assoc]

theorem operands_of_isFoldable {ev : Evaluator} {e : Expr} (h : ev.isFoldable e = true) :
    ∀ a ∈ e.operands, ∃ v, a = const v := by
  intro a ha
  exact isConst_iff.mp ((isFoldable_iff.mp h).2.1 a ha)

theorem folded_of_ok {ev : Evaluator} {e : Expr} {v : Value} (h : ev.isFoldable e = true)
    (hv : ev.constants e = .ok v) : ev.folded e = const v := by
  rw [folded, if_pos h, hv]
  rfl

theorem folded_of_open (ev : Evaluator) {e a : Expr} (ha : a ∈ e.operands)
    (h : a.isConst = false) : ev.folded e = e := by
  refine if_neg fun hfold => ?_
  obtain ⟨v, rfl⟩ := operands_of_isFoldable hfold a ha
  cases h

theorem folded_of_not_isNode (ev : Evaluator) {e : Expr} (h : e.isNode = false) :
    ev.folded e = e := by
  refine if_neg fun hfold => ?_
  rw [(isFoldable_iff.mp hfold).1] at h
  cases h

theorem folded_cases (ev : Evaluator) (e : Expr) :
    (∃ v, ev.folded e = const v) ∨ ev.folded e = e := by
  unfold folded
  split
  · unfold foldedTo
    split
    · exact Or.inl ⟨_, rfl⟩
    · split
      · exact Or.inl ⟨_, rfl⟩
      · exact Or.inr rfl
  · exact Or.inr rfl

/-! ## Measures -/

/-- A measure that is least at the type error, no greater at a value than at a node, that grows with
the operands of a node, and that no rule increases. -/
structure NonIncreasing (ev : Evaluator) (μ : Expr → Nat) : Prop where
  typeError_le (e : Expr) : μ typeError ≤ μ e
  const_le (v : Value) (e : Expr) (he : e.isNode = true) : μ (const v) ≤ μ e
  mapOperands_le (f : Expr → Expr) (e : Expr) (h : ∀ a ∈ e.operands, μ (f a) ≤ μ a) :
    μ (e.mapOperands f) ≤ μ e
  rewritten_le (e e' : Expr) (h : ev.rewritten? e = some e') : μ e' ≤ μ e

namespace NonIncreasing

variable {ev : Evaluator} {μ : Expr → Nat} (hμ : ev.NonIncreasing μ)

include hμ

theorem folded_le (e : Expr) : μ (ev.folded e) ≤ μ e := by
  cases he : e.isNode with
  | true =>
    rcases ev.folded_cases e with ⟨v, hv⟩ | h
    · rw [hv]
      exact hμ.const_le v e he
    · exact Nat.le_of_eq (congrArg μ h)
  | false => exact Nat.le_of_eq (congrArg μ (folded_of_not_isNode ev he))

theorem settled_le {eval : Expr → Expr} {e : Expr}
    (h : ∀ e', ev.rewritten? e = some e' → ∀ a ∈ e'.operands, μ (eval a) ≤ μ a) :
    μ (ev.settled eval e) ≤ μ e := by
  unfold settled
  cases hrule : ev.rewritten? e with
  | none => exact hμ.folded_le e
  | some e' =>
    refine onOperands_induction (P := fun r => μ r ≤ μ e) (hμ.typeError_le e) fun _ => ?_
    calc μ (ev.folded (e'.mapOperands eval))
        ≤ μ (e'.mapOperands eval) := hμ.folded_le _
      _ ≤ μ e' := hμ.mapOperands_le eval e' (h e' hrule)
      _ ≤ μ e := hμ.rewritten_le e e' hrule

end NonIncreasing

/-! ## Results of runs -/

theorem fold_result (ev : Evaluator) (e : Expr) : (ev.fold e).result? = some (ev.folded e) := by
  unfold fold folded
  split <;> simp

theorem offer_result (ev : Evaluator) (e : Expr) :
    (ev.offer e).result? = some (ev.rewritten? e) := by
  unfold offer rewritten?
  cases ev.rules <;> simp

theorem evaluateOperands_result {f : Expr → Run Expr} {g : Expr → Expr} {es : List Expr}
    (h : ∀ e ∈ es, (f e).result? = some (g e)) :
    (evaluateOperands f es).result? =
      some (if es.any fun e => (g e).isTypeError then none else some (es.map g)) := by
  induction es with
  | nil => rfl
  | cons e es ih =>
    rw [evaluateOperands, result?_bind, h e List.mem_cons_self, Option.bind_some]
    cases htype : (g e).isTypeError with
    | true => simp [htype]
    | false =>
      simp only [Bool.false_eq_true, if_false, result?_bind, result?_pure,
        ih fun a ha => h a (List.mem_cons_of_mem e ha), Option.bind_some, List.any_cons, htype,
        Bool.false_or, List.map_cons]
      split <;> rfl

theorem rebuild_result {f : Expr → Run Expr} {g : Expr → Expr} {e : Expr}
    (h : ∀ a ∈ e.operands, (f a).result? = some (g a)) :
    (rebuild f e).result? =
      some (if e.operands.any fun a => (g a).isTypeError then none else some (e.mapOperands g)) := by
  rw [rebuild, result?_bind, evaluateOperands_result h, Option.bind_some, result?_pure]
  split <;> rfl

theorem settle_result {ev : Evaluator} {f : Expr → Run Expr} {g : Expr → Expr} {e : Expr}
    (h : ∀ e', ev.rewritten? e = some e' → ∀ a ∈ e'.operands, (f a).result? = some (g a)) :
    (ev.settle f e).result? = some (ev.settled g e) := by
  rw [settle, result?_bind, offer_result, Option.bind_some, settled]
  cases hrule : ev.rewritten? e with
  | none => exact fold_result ev e
  | some e' =>
    dsimp only
    rw [result?_bind, rebuild_result (h e' hrule), Option.bind_some, onOperands]
    cases e'.operands.any fun a => (g a).isTypeError with
    | true => rfl
    | false => exact fold_result ev _

theorem evaluateNode_result {ev : Evaluator} {outer inner : Expr → Run Expr} {f g : Expr → Expr}
    {e : Expr} (ho : ∀ a ∈ e.operands, (outer a).result? = some (f a))
    (hi : ∀ e', ev.rewritten? (e.mapOperands f) = some e' →
      ∀ a ∈ e'.operands, (inner a).result? = some (g a)) :
    (ev.evaluateNode outer inner e).result? = some (onOperands f (ev.settled g) e) := by
  rw [evaluateNode, result?_bind, rebuild_result ho, Option.bind_some, onOperands]
  cases e.operands.any fun a => (f a).isTypeError with
  | true => rfl
  | false => exact settle_result hi

/-! ## Rules that do not grow -/

/-- No rule makes a node larger. -/
def NonGrowing (ev : Evaluator) : Prop := ∀ e e', ev.rewritten? e = some e' → e'.size ≤ e.size

namespace NonGrowing

variable {ev : Evaluator} (h : ev.NonGrowing)

include h

theorem nonIncreasing_size : ev.NonIncreasing size where
  typeError_le := size_pos
  const_le _ e _ := size_pos e
  mapOperands_le _ _ hle := size_mapOperands_le_self hle
  rewritten_le := h

/-- What a rule gives to evaluate is smaller than the node that it rewrites. -/
theorem size_operand_lt {a e e' : Expr} (hrule : ev.rewritten? e = some e') (ha : a ∈ e'.operands) :
    a.size < e.size :=
  Nat.lt_of_lt_of_le (size_lt_of_mem_operands ha) (h e e' hrule)

end NonGrowing

/-- The step of the argument that an evaluation ends: a node does, if its operands do and every
smaller expression does without a binding. -/
theorem evaluateNode_returns {ev : Evaluator} (h : ev.NonGrowing) {outer inner : Expr → Run Expr}
    {b : Binding} {e : Expr} (he : e.isNode = true)
    (ho : ∀ a ∈ e.operands, ∃ r, (outer a).result? = some r ∧ r.size ≤ (a.substitute b).size)
    (hi : ∀ a, a.size < (e.substitute b).size →
      ∃ r, (inner a).result? = some r ∧ r.size ≤ a.size) :
    ∃ r, (ev.evaluateNode outer inner e).result? = some r ∧ r.size ≤ (e.substitute b).size := by
  let f a := (outer a).result?.getD a
  let g a := (inner a).result?.getD a
  have hf : ∀ a ∈ e.operands,
      (outer a).result? = some (f a) ∧ (f a).size ≤ (a.substitute b).size := by
    intro a ha
    obtain ⟨r, hr, hsize⟩ := ho a ha
    simp only [f, hr, Option.getD_some, hsize, and_self]
  have hg : ∀ a, a.size < (e.substitute b).size →
      (inner a).result? = some (g a) ∧ (g a).size ≤ a.size := by
    intro a ha
    obtain ⟨r, hr, hsize⟩ := hi a ha
    simp only [g, hr, Option.getD_some, hsize, and_self]
  have hle : (e.mapOperands f).size ≤ (e.substitute b).size := by
    rw [substitute_node he]
    exact size_mapOperands_le fun a ha => (hf a ha).2
  refine ⟨_, evaluateNode_result (fun a ha => (hf a ha).1) fun e' hrule a ha => (hg a ?_).1, ?_⟩
  · exact Nat.lt_of_lt_of_le (h.size_operand_lt hrule ha) hle
  · refine onOperands_induction (P := fun r => r.size ≤ (e.substitute b).size) (size_pos _)
      fun _ => ?_
    refine Nat.le_trans (h.nonIncreasing_size.settled_le fun e' hrule a ha => (hg a ?_).2) hle
    exact Nat.lt_of_lt_of_le (h.size_operand_lt hrule ha) hle

/-- Without a binding, a depth of the size of the expression is enough. -/
theorem run_empty_returns {ev : Evaluator} (h : ev.NonGrowing) {n : Nat} {e : Expr}
    (hn : e.size ≤ n) : ∃ r, (ev.run n ∅ e).result? = some r ∧ r.size ≤ e.size := by
  induction n generalizing e with
  | zero =>
    have hpos := size_pos e
    omega
  | succ n ih =>
    have hnode : e.isNode = true → ∃ r, (ev.evaluateNode (ev.run n ∅) (ev.run n ∅) e).result? =
        some r ∧ r.size ≤ e.size := by
      intro he
      have ho : ∀ a ∈ e.operands, ∃ r, (ev.run n ∅ a).result? = some r ∧
          r.size ≤ (a.substitute ∅).size := by
        intro a ha
        have hlt := size_lt_of_mem_operands ha
        rw [substitute_empty]
        exact ih (by omega)
      have hi : ∀ a, a.size < (e.substitute ∅).size →
          ∃ r, (ev.run n ∅ a).result? = some r ∧ r.size ≤ a.size := by
        intro a ha
        rw [substitute_empty] at ha
        exact ih (by omega)
      have hreturns := evaluateNode_returns h he ho hi
      rwa [substitute_empty] at hreturns
    cases e with
    | const v => exact ⟨const v, rfl, Nat.le_refl _⟩
    | var x => exact ⟨var x, rfl, Nat.le_refl _⟩
    | call name args => exact hnode rfl
    | term l d => exact hnode rfl

/-- With a binding, looking up a variable takes one level more. -/
theorem run_returns {ev : Evaluator} (h : ev.NonGrowing) {b : Binding} {e : Expr} {n : Nat}
    (hn : (e.substitute b).size < n) :
    ∃ r, (ev.run n b e).result? = some r ∧ r.size ≤ (e.substitute b).size := by
  induction n generalizing e with
  | zero => omega
  | succ n ih =>
    have hnode : e.isNode = true → ∃ r, (ev.evaluateNode (ev.run n b) (ev.run n ∅) e).result? =
        some r ∧ r.size ≤ (e.substitute b).size := by
      intro he
      refine evaluateNode_returns h he (fun a ha => ih ?_) (fun a ha => run_empty_returns h ?_)
      · have hlt := size_substitute_lt_of_mem_operands (b := b) ha
        omega
      · omega
    cases e with
    | const v => exact ⟨const v, rfl, size_pos _⟩
    | var x =>
      rw [substitute_var] at hn ⊢
      rw [run]
      cases hx : b.find? x with
      | none => exact ⟨var x, rfl, Nat.le_refl _⟩
      | some bound =>
        rw [hx] at hn
        exact run_empty_returns h (Nat.le_of_lt_succ hn)
    | call name args => exact hnode rfl
    | term l d => exact hnode rfl

/-! ## The equations -/

section

variable {ev : Evaluator} (h : ev.NonGrowing)

include h

theorem run_result {b : Binding} {e : Expr} {n : Nat} (hn : (e.substitute b).size < n) :
    (ev.run n b e).result? = some (ev.evaluate b e) := by
  obtain ⟨r, hr, -⟩ := run_returns h (Nat.lt_succ_self (e.substitute b).size)
  have hevaluate : ev.evaluate b e = r := by
    rw [evaluate, depthFor, hr, Option.getD_some]
  rw [hevaluate]
  exact (run_le ev hn b e).result hr

theorem run_empty_result {e : Expr} {n : Nat} (hn : e.size ≤ n) :
    (ev.run n ∅ e).result? = some (ev.evaluate ∅ e) := by
  obtain ⟨r, hr, -⟩ := run_empty_returns h hn
  have hmore := (run_le ev (Nat.le_succ n) ∅ e).result hr
  rw [run_result h (by rw [substitute_empty]; omega)] at hmore
  rw [hr, hmore]

theorem returns_evaluate (b : Binding) (e : Expr) : ev.Returns b e (ev.evaluate b e) :=
  ⟨_, run_result h (Nat.lt_succ_self _)⟩

theorem run_depthFor (b : Binding) (e : Expr) :
    ev.run (depthFor b e) b e = some (ev.evaluate b e, ev.traceOf b e) := by
  have hresult := run_result h (Nat.lt_succ_self (e.substitute b).size)
  obtain ⟨⟨r, asked⟩, hrun, hr⟩ := Option.map_eq_some_iff.mp hresult
  have htrace : ev.traceOf b e = asked := by
    rw [traceOf, depthFor, hrun]
    rfl
  rw [htrace, ← hr]
  exact hrun

theorem size_evaluate_le (b : Binding) (e : Expr) :
    (ev.evaluate b e).size ≤ (e.substitute b).size := by
  obtain ⟨r, hr, hsize⟩ := run_returns h (Nat.lt_succ_self (e.substitute b).size)
  rw [run_result h (Nat.lt_succ_self _)] at hr
  rwa [Option.some.inj hr]

theorem size_evaluate_empty_le (e : Expr) : (ev.evaluate ∅ e).size ≤ e.size := by
  have hle := size_evaluate_le h ∅ e
  rwa [substitute_empty] at hle

omit h in
@[simp] theorem evaluate_const (ev : Evaluator) (b : Binding) (v : Value) :
    ev.evaluate b (const v) = const v := rfl

theorem evaluate_var (b : Binding) (x : String) :
    ev.evaluate b (var x) = ((b.find? x).map (ev.evaluate ∅)).getD (var x) := by
  have hrun := run_result h (Nat.lt_succ_self ((var x).substitute b).size)
  rw [run] at hrun
  cases hx : b.find? x with
  | none =>
    rw [hx] at hrun
    exact (Option.some.inj hrun).symm
  | some bound =>
    rw [hx] at hrun
    have hbound : (var x).substitute b = bound := by rw [substitute_var, hx, Option.getD_some]
    rw [hbound] at hrun
    rw [run_empty_result h (Nat.le_refl _)] at hrun
    exact (Option.some.inj hrun).symm

theorem evaluate_node (b : Binding) {e : Expr} (he : e.isNode = true) :
    ev.evaluate b e = onOperands (ev.evaluate b) (ev.settled (ev.evaluate ∅)) e := by
  have hrun := run_result h (Nat.lt_succ_self (e.substitute b).size)
  rw [run_node ev _ b he, evaluateNode_result (f := ev.evaluate b) (g := ev.evaluate ∅)] at hrun
  · exact (Option.some.inj hrun).symm
  · exact fun a ha => run_result h (size_substitute_lt_of_mem_operands ha)
  · intro e' hrule a ha
    have hlt := h.size_operand_lt hrule ha
    have hle : (e.mapOperands (ev.evaluate b)).size ≤ (e.substitute b).size := by
      rw [substitute_node he]
      exact size_mapOperands_le fun a _ => size_evaluate_le h b a
    exact run_empty_result h (by omega)

theorem evaluate_var_empty (x : String) : ev.evaluate ∅ (var x) = var x := by
  rw [evaluate_var h]
  rfl

/-- Induction along evaluations without a binding. What a rule gives to evaluate is no part of the
node, but it is smaller than the node with evaluated operands. -/
@[elab_as_elim]
theorem unboundInduction {motive : Expr → Prop} (const : ∀ v, motive (const v))
    (var : ∀ x, motive (var x))
    (node : ∀ e, e.isNode = true → (∀ a ∈ e.operands, motive a) →
      (∀ a, a.size < (e.mapOperands (ev.evaluate ∅)).size → motive a) → motive e) (e : Expr) :
    motive e := by
  generalize hn : e.size = n
  induction n using Nat.strongRecOn generalizing e with
  | ind n ih =>
    have hnode : e.isNode = true → motive e := by
      intro he
      refine node e he (fun a ha => ih _ (hn ▸ size_lt_of_mem_operands ha) a rfl) fun a ha => ?_
      have hsize : (e.mapOperands (ev.evaluate ∅)).size ≤ n :=
        hn ▸ size_mapOperands_le_self fun a _ => size_evaluate_empty_le h a
      exact ih _ (Nat.lt_of_lt_of_le ha hsize) a rfl
    cases e with
    | const v => exact const v
    | var x => exact var x
    | call name args => exact hnode rfl
    | term l d => exact hnode rfl

theorem evaluate_substitute (b : Binding) (e : Expr) :
    ev.evaluate b e = ev.evaluate ∅ (e.substitute b) :=
  (returns_substitute_iff.mp (returns_evaluate h b e)).unique (returns_evaluate h ∅ _)

end

/-! ## Measures of results -/

theorem NonIncreasing.evaluate_empty_le {ev : Evaluator} {μ : Expr → Nat} (hμ : ev.NonIncreasing μ)
    (h : ev.NonGrowing) (e : Expr) : μ (ev.evaluate ∅ e) ≤ μ e := by
  induction e using unboundInduction h with
  | const v => exact Nat.le_refl _
  | var x => exact Nat.le_of_eq (by rw [evaluate_var_empty h])
  | node e he hoperands hsmaller =>
    rw [evaluate_node h ∅ he]
    refine onOperands_induction (P := fun r => μ r ≤ μ e) (hμ.typeError_le e) fun _ => ?_
    refine Nat.le_trans (hμ.settled_le fun e' hrule a ha => hsmaller a ?_)
      (hμ.mapOperands_le _ e hoperands)
    exact h.size_operand_lt hrule ha

end Residual.Evaluator
