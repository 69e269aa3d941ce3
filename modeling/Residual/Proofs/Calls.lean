import Mathlib.Logic.Relation
import Residual.Evaluation.Log
import Residual.Proofs.Runs
import Residual.Proofs.StandardRules

/-!
# Calls and questions of an evaluation

An evaluation calls for others: for those of the operands of a node, of a bound expression, and of
the operands that a rule builds. On the way it asks two parties. The rules are offered a node only
after all its operands have results, and none of these is the type error. The evaluator of constants
is asked for the value of a node only if its operands are constants and its identifier may be
folded. Both hold along a whole run, whatever the rules put in place of a node.

* `Evaluator.Rebuilt`, `Evaluator.Calls`: nodes with evaluated operands, and the calls for others.
* `Registry.admits_iff`: the identifiers that may be folded.
* `Evaluator.run_justified`: every question of a run has its reason.
* `Evaluator.questions_of_run`: what is asked of the rules and of the evaluator of constants.
-/

namespace Residual

open Residual.Expr

/-! ## Identifiers that may be folded -/

theorem Operator.isComparison_iff {f : String} :
    (Operator.ofName? f).any (·.isComparison) = true ↔ f ∈ ["=", "!=", "<", "<=", ">", ">="] := by
  rw [Option.any_eq_true]
  constructor
  · rintro ⟨op, hop, hcompare⟩
    rw [← Operator.ofName?_eq_some_iff.mp hop]
    cases op <;> first | decide | cases hcompare
  · intro hf
    simp only [List.mem_cons, List.not_mem_nil, or_false] at hf
    rcases hf with rfl | rfl | rfl | rfl | rfl | rfl
    · exact ⟨.eq, by decide, rfl⟩
    · exact ⟨.ne, by decide, rfl⟩
    · exact ⟨.lt, by decide, rfl⟩
    · exact ⟨.le, by decide, rfl⟩
    · exact ⟨.gt, by decide, rfl⟩
    · exact ⟨.ge, by decide, rfl⟩

/-- A name under which a call may be folded: none, the empty one, that of a comparison, or a
registered one. -/
def Registry.Foldable (r : Registry) (name : Option String) : Prop :=
  name = none ∨ name = some "" ∨
    ∃ f, name = some f ∧ (f ∈ ["=", "!=", "<", "<=", ">", ">="] ∨ r.contains f = true)

theorem Registry.admits_iff {r : Registry} {name : Option String} :
    r.admits name = true ↔ r.Foldable name := by
  cases name with
  | none => simp [admits, Foldable]
  | some f =>
    rw [admits, Bool.or_eq_true, isKnown, Bool.or_eq_true, Operator.isComparison_iff, beq_iff_eq]
    simp [Foldable]

theorem Registry.admits_identifierOf (r : Registry) (name : Option String) :
    r.admits (identifierOf name) = r.admits name := by
  cases name with
  | none => rfl
  | some f =>
    by_cases hf : f = ""
    · subst hf
      rfl
    · rw [identifierOf_eq_some_iff.mpr ⟨rfl, hf⟩]

namespace Evaluator

open Run

/-! ## Calls for other evaluations -/

/-- A node after its operands were evaluated, none of them to the type error. -/
def Rebuilt (ev : Evaluator) (b : Binding) (e e' : Expr) : Prop :=
  e.isNode = true ∧ ∃ vs, List.Forall₂ (fun a v => ev.Returns b a v ∧ v ≠ typeError) e.operands vs ∧
    e' = e.withOperands vs

/-- The evaluations that an evaluation calls for itself, each with its binding. -/
inductive Calls (ev : Evaluator) : Binding × Expr → Binding × Expr → Prop
  /-- An operand is evaluated with the same binding. -/
  | operand {b : Binding} {e a : Expr} (ha : a ∈ e.operands) : Calls ev (b, e) (b, a)
  /-- A bound expression is evaluated without the binding. -/
  | bound {b : Binding} {x : String} {a : Expr} (ha : b.find? x = some a) :
    Calls ev (b, var x) (∅, a)
  /-- So is what a rule builds as an operand. -/
  | built {b : Binding} {e e' e'' a : Expr} (he : ev.Rebuilt b e e')
    (hrule : ev.rewritten? e' = some e'') (ha : a ∈ e''.operands) : Calls ev (b, e) (∅, a)

/-- The evaluations in the course of an evaluation, itself included. -/
def Reaches (ev : Evaluator) : Binding × Expr → Binding × Expr → Prop :=
  Relation.ReflTransGen ev.Calls

/-! ## Reasons for questions -/

/-- A node that is ready to be folded. -/
structure Ready (ev : Evaluator) (e : Expr) : Prop where
  shape : (∃ l d, e = term l d) ∨ ∃ name args, e = call name args ∧ ev.registry.Foldable name
  constant : ∀ a ∈ e.operands, ∃ v, a = const v ∧ v ≠ .typeError

/-- Why a question is asked in the course of an evaluation, and what the answer is. -/
inductive Justified (ev : Evaluator) (b : Binding) (e : Expr) : Event → Prop
  | folded {n : Expr} (hn : ev.Ready n) : Justified ev b e (.folded n (ev.constants n))
  | offered {b' : Binding} {m n : Expr} {table : RuleTable} (hreach : ev.Reaches (b, e) (b', m))
    (hn : ev.Rebuilt b' m n) (htable : ev.rules = some table) :
    Justified ev b e (.offered n (table.tryRewrite n))

theorem Justified.of_calls {ev : Evaluator} {b b' : Binding} {e e' : Expr} {q : Event}
    (hcalls : ev.Calls (b, e) (b', e')) (h : ev.Justified b' e' q) : ev.Justified b e q := by
  cases h with
  | folded hn => exact .folded hn
  | offered hreach hn htable => exact .offered (.head hcalls hreach) hn htable

theorem ready_of_isFoldable {ev : Evaluator} {e : Expr} (h : ev.isFoldable e = true)
    (hno : ∀ a ∈ e.operands, a ≠ typeError) : ev.Ready e := by
  obtain ⟨hnode, -, hadmits⟩ := isFoldable_iff.mp h
  refine ⟨?_, fun a ha => ?_⟩
  · cases e with
    | const v => cases hnode
    | var x => cases hnode
    | call name args =>
      refine Or.inr ⟨name, args, rfl, Registry.admits_iff.mp ?_⟩
      rwa [identifier?, Registry.admits_identifierOf] at hadmits
    | term l d => exact Or.inl ⟨l, d, rfl⟩
  · obtain ⟨v, rfl⟩ := operands_of_isFoldable h a ha
    exact ⟨v, rfl, fun hv => hno _ ha (congrArg const hv)⟩

/-! ## The questions of a node -/

theorem noTypeError_of_forall₂ {Q : Expr → Expr → Prop} {e : Expr} {vs : List Expr}
    (h : List.Forall₂ (fun a v => Q a v ∧ v ≠ typeError) e.operands vs) :
    ∀ v ∈ (e.withOperands vs).operands, v ≠ typeError := by
  intro v hv
  obtain ⟨a, -, -, hno⟩ := exists_operand_of_forall₂ h hv
  exact hno

theorem Rebuilt.noTypeError {ev : Evaluator} {b : Binding} {e e' : Expr} (h : ev.Rebuilt b e e') :
    ∀ a ∈ e'.operands, a ≠ typeError := by
  obtain ⟨-, vs, hvs, rfl⟩ := h
  exact noTypeError_of_forall₂ hvs

theorem fold_justified {ev : Evaluator} {b : Binding} {e n : Expr}
    (hno : ∀ a ∈ n.operands, a ≠ typeError) :
    (ev.fold n).Keeps (fun _ => True) (ev.Justified b e) := by
  unfold fold
  split
  · rename_i h
    exact keeps_ask (.folded (ready_of_isFoldable h hno)) trivial
  · exact keeps_pure trivial

/-- The step: the questions of a node have their reasons, if those of the evaluations that it calls
for have them. -/
theorem evaluateNode_justified {ev : Evaluator} {b : Binding} {outer inner : Expr → Run Expr}
    {e : Expr} (he : e.isNode = true)
    (ho : ∀ a, (outer a).Keeps (ev.Returns b a) (ev.Justified b a))
    (hi : ∀ a, (inner a).Keeps (ev.Returns ∅ a) (ev.Justified ∅ a)) :
    (ev.evaluateNode outer inner e).Keeps (fun _ => True) (ev.Justified b e) := by
  have hoperand : ∀ a ∈ e.operands, (outer a).Keeps (ev.Returns b a) (ev.Justified b e) :=
    fun a ha => (ho a).mono (fun _ h => h) fun _ h => h.of_calls (.operand ha)
  refine keeps_evaluateNode hoperand trivial fun vs hvs => ?_
  have hnode : ev.Rebuilt b e (e.withOperands vs) := ⟨he, vs, hvs, rfl⟩
  have hbuilt : ∀ e', ev.rewritten? (e.withOperands vs) = some e' →
      ∀ a ∈ e'.operands, (inner a).Keeps (ev.Returns ∅ a) (ev.Justified b e) :=
    fun e' hrule a ha =>
      (hi a).mono (fun _ h => h) fun _ h => h.of_calls (.built hnode hrule ha)
  refine keeps_settle (fun table htable => .offered .refl hnode htable) hbuilt trivial
    (fold_justified (noTypeError_of_forall₂ hvs)) fun e' vs' hvs' => ?_
  exact fold_justified (noTypeError_of_forall₂ hvs')

/-! ## The questions of a run -/

theorem keeps_returns {ev : Evaluator} {depth : Nat} {b : Binding} {e : Expr} {P : Event → Prop}
    (h : (ev.run depth b e).Keeps (fun _ => True) P) :
    (ev.run depth b e).Keeps (ev.Returns b e) P := by
  intro r asked hr
  exact ⟨⟨depth, Option.map_eq_some_iff.mpr ⟨_, hr, rfl⟩⟩, (h r asked hr).2⟩

theorem rebuilt_of_result {ev : Evaluator} {depth : Nat} {b : Binding} {e e' : Expr}
    (he : e.isNode = true) (h : (rebuild (ev.run depth b) e).result? = some (some e')) :
    ev.Rebuilt b e e' := by
  obtain ⟨⟨answer, asked⟩, hrun, rfl⟩ := Option.map_eq_some_iff.mp h
  have hreturns : ∀ a ∈ e.operands, (ev.run depth b a).Keeps (ev.Returns b a) fun _ => True :=
    fun a _ => keeps_returns fun _ _ _ => ⟨trivial, fun _ _ => trivial⟩
  exact ⟨he, (keeps_rebuild hreturns _ asked hrun).1 e' rfl⟩

theorem run_justified (ev : Evaluator) (depth : Nat) (b : Binding) (e : Expr) :
    (ev.run depth b e).Keeps (ev.Returns b e) (ev.Justified b e) := by
  induction depth generalizing b e with
  | zero => exact keeps_stop
  | succ depth ih =>
    refine keeps_returns ?_
    cases e with
    | const v => exact keeps_pure trivial
    | var x =>
      rw [run]
      split
      · rename_i bound hbound
        exact (ih ∅ bound).mono (fun _ _ => trivial) fun _ h => h.of_calls (.bound hbound)
      · exact keeps_pure trivial
    | call name args => exact evaluateNode_justified rfl (ih b) (ih ∅)
    | term l d => exact evaluateNode_justified rfl (ih b) (ih ∅)

/-- **Questions.** Whatever the registry, the rules, the evaluator of constants and the binding, in
an evaluation that ends every node whose value is asked for is a typed term, or a call without a
name, with the empty name, or with the name of a comparison or of a registered function; its
operands are constants and not the type error. Every node that is offered to the rules has for
operands the results of evaluations in the course of this one, and none of them is the type
error. -/
theorem questions_of_run {ev : Evaluator} {depth : Nat} {b : Binding} {e r : Expr}
    {asked : List Event} (h : ev.run depth b e = some (r, asked)) :
    (∀ n answer, .folded n answer ∈ asked → answer = ev.constants n ∧
      ((∃ l d, n = term l d) ∨ ∃ name args, n = call name args ∧
        (name = none ∨ name = some "" ∨ ∃ f, name = some f ∧
          (f ∈ ["=", "!=", "<", "<=", ">", ">="] ∨ ev.registry.contains f = true))) ∧
      ∀ a ∈ n.operands, ∃ v, a = const v ∧ v ≠ .typeError) ∧
    ∀ n answer, .offered n answer ∈ asked → answer = ev.rewritten? n ∧
      ∃ b' m, ev.Reaches (b, e) (b', m) ∧ m.isNode = true ∧ n = m.withOperands n.operands ∧
        List.Forall₂ (fun a v => ev.Returns b' a v ∧ v ≠ typeError) m.operands n.operands := by
  have hjustified := (run_justified ev depth b e r asked h).2
  refine ⟨fun n answer hq => ?_, fun n answer hq => ?_⟩
  · cases hjustified _ hq with
    | folded hn => exact ⟨rfl, hn.shape, hn.constant⟩
  · cases hjustified _ hq with
    | @offered b' m _ table hreach hn htable =>
      obtain ⟨hnode, vs, hvs, rfl⟩ := hn
      have hoperands := operands_withOperands hvs.length_eq.symm
      refine ⟨by rw [rewritten?, htable]; rfl, b', m, hreach, hnode, ?_, ?_⟩
      · rw [hoperands]
      · rwa [hoperands]

/-- A rule puts a typed term and a call of an unknown function in place of a call. Only the text of
the term is folded: its datatype is open, and the function is unknown. The rules are asked again for
what is built, but not for the call that they gave. -/
theorem questions_of_run_at :
    let ev : Evaluator := {
      registry := .builtins
      rules := some (.ofList [("f", fun c =>
        some (apply .concat [term (apply .concat c.args) (var "d"), call (some "g") c.args]))]) }
    let b : Binding := Dictionary.ofList [("x", const (.string "b"))]
    let e := call (some "f") [const (.string "a"), var "x"]
    ∃ r asked, ev.run 4 b e = some (r, asked) ∧
      asked.filterMap Event.foldedNode? =
        [apply .concat [const (.string "a"), const (.string "b")]] ∧
      (∀ n answer, .folded n answer ∈ asked → ∀ a ∈ n.operands, ∃ v, a = const v ∧ v ≠ .typeError) ∧
      ∀ n answer, .offered n answer ∈ asked → ∃ b' m, ev.Reaches (b, e) (b', m) ∧
        List.Forall₂ (fun a v => ev.Returns b' a v ∧ v ≠ typeError) m.operands n.operands := by
  intro ev b e
  have hfolded : (ev.run 4 b e).trace.filterMap Event.foldedNode? =
    [apply .concat [const (.string "a"), const (.string "b")]] := rfl
  obtain ⟨⟨r, asked⟩, h⟩ : ∃ p, ev.run 4 b e = some p := ⟨_, rfl⟩
  rw [h] at hfolded
  obtain ⟨hfolds, hoffers⟩ := questions_of_run h
  refine ⟨r, asked, h, hfolded, fun n answer hq => (hfolds n answer hq).2.2, fun n answer hq => ?_⟩
  obtain ⟨-, b', m, hreach, -, -, hoperands⟩ := hoffers n answer hq
  exact ⟨b', m, hreach, hoperands⟩

end Evaluator

end Residual
