import Residual.Proofs.StandardRules

/-!
# Where the nodes of a result come from

Under the standard rules, evaluation puts few nodes into a result that were not there before: typed
terms, IRIs, one string, and what folding gives. Of any other kind, the nodes of a result come from
the expression or from the expressions bound to its variables.

* `Expr.Has`: a node of some kind occurs in an expression.
* `Expr.Unbuilt`: the kinds that the standard rules do not bring in.
* `Evaluator.Inherited`: the kinds that evaluation does not bring in.
* `Evaluator.Inherited.of_evaluate`: where nodes of these kinds come from.
-/

namespace Residual

open Residual.Expr Rule

/-! ## Kinds of nodes in an expression -/

namespace Expr

/-- A node of the kind occurs in the expression. -/
def Has (kind : Expr → Prop) (e : Expr) : Prop := ∃ n : Expr, n.OccursIn e ∧ kind n

variable {kind : Expr → Prop} {e : Expr}

theorem has_iff : e.Has kind ↔ kind e ∨ ∃ a ∈ e.operands, a.Has kind := by
  constructor
  · rintro ⟨n, hn, hkind⟩
    rcases occursIn_iff.mp hn with rfl | ⟨a, ha, hn⟩
    · exact Or.inl hkind
    · exact Or.inr ⟨a, ha, n, hn, hkind⟩
  · rintro (hkind | ⟨a, ha, n, hn, hkind⟩)
    · exact ⟨e, .here, hkind⟩
    · exact ⟨n, .inside ha hn, hkind⟩

theorem Has.of_operand {a : Expr} (ha : a ∈ e.operands) (h : a.Has kind) : e.Has kind :=
  has_iff.mpr (Or.inr ⟨a, ha, h⟩)

@[simp] theorem has_const {v : Value} : (const v).Has kind ↔ kind (const v) := by
  rw [has_iff]
  simp [operands]

@[simp] theorem has_var {x : String} : (var x).Has kind ↔ kind (var x) := by
  rw [has_iff]
  simp [operands]

@[simp] theorem has_call {name : Option String} {args : List Expr} :
    (call name args).Has kind ↔ kind (call name args) ∨ ∃ a ∈ args, a.Has kind :=
  has_iff

@[simp] theorem has_term {l d : Expr} :
    (term l d).Has kind ↔ kind (term l d) ∨ l.Has kind ∨ d.Has kind := by
  rw [has_iff]
  simp [operands]

/-- If a kind does not depend on operands, these may bring it in when they are changed, but the node
itself does not. -/
theorem has_mapOperands {g : Expr → Expr} (hhead : kind (e.mapOperands g) → kind e)
    (h : (e.mapOperands g).Has kind) : e.Has kind ∨ ∃ a ∈ e.operands, (g a).Has kind := by
  rcases has_iff.mp h with hkind | ⟨a', ha', h⟩
  · exact Or.inl (has_iff.mpr (Or.inl (hhead hkind)))
  · rw [operands_mapOperands, List.mem_map] at ha'
    obtain ⟨a, ha, rfl⟩ := ha'
    exact Or.inr ⟨a, ha, h⟩

theorem has_of_mapOperands {g : Expr → Expr} (hhead : kind (e.mapOperands g) → kind e)
    (hg : ∀ a ∈ e.operands, (g a).Has kind → a.Has kind) (h : (e.mapOperands g).Has kind) :
    e.Has kind := by
  rcases has_mapOperands hhead h with h | ⟨a, ha, h⟩
  · exact h
  · exact .of_operand ha (hg a ha h)

theorem has_substitute (hhead : ∀ {e : Expr} {g : Expr → Expr}, kind (e.mapOperands g) → kind e)
    {b : Binding} (h : (e.substitute b).Has kind) :
    e.Has kind ∨ ∃ x a, (var x).OccursIn e ∧ b.find? x = some a ∧ a.Has kind := by
  induction e using nodeInduction with
  | const v =>
    rw [substitute_const] at h
    exact Or.inl h
  | var x =>
    rw [substitute_var] at h
    cases hx : b.find? x with
    | none =>
      rw [hx] at h
      exact Or.inl h
    | some a =>
      rw [hx] at h
      exact Or.inr ⟨x, a, .here, hx, h⟩
  | node e he ih =>
    rw [substitute_node he] at h
    rcases has_mapOperands hhead h with h | ⟨c, hc, h⟩
    · exact Or.inl h
    · rcases ih c hc h with h | ⟨x, a, hx, ha, h⟩
      · exact Or.inl (.of_operand hc h)
      · exact Or.inr ⟨x, a, .inside hc hx, ha, h⟩

end Expr

/-! ## Kinds that rules do not build -/

/-- A kind of nodes of which the standard rules build none, except in place of others. -/
structure Expr.Unbuilt (kind : Expr → Prop) : Prop where
  /-- A call is of the kind or not whatever its arguments are. -/
  call : ∀ {name args args'}, kind (.call name args) → kind (.call name args')
  term : ∀ l d, ¬ kind (.term l d)
  string : ¬ kind (const (.string Xsd.string))
  iri : ∀ name, ¬ kind (const (.iri name))

section

variable {kind : Expr → Prop} (h : Unbuilt kind)

include h

theorem Expr.Unbuilt.head {e : Expr} {g : Expr → Expr} (he : kind (e.mapOperands g)) : kind e := by
  cases e with
  | const v => exact he
  | var x => exact he
  | call name args => exact h.call he
  | term l d => exact absurd he (h.term _ _)

theorem Expr.Unbuilt.of_step {e e' : Expr} (hstep : StandardStep e e') (he' : e'.Has kind) :
    e.Has kind := by
  cases hstep with
  | str l d =>
    -- the call that is built differs from the one that is rewritten in its arguments only
    simp only [typedLiteral, apply, has_term, has_call, has_const, List.mem_singleton,
      exists_eq_left, h.term, h.string, false_or, or_false] at he' ⊢
    exact he'.imp h.call Or.inl
  | datatypeName l name => exact absurd (has_const.mp he') (h.iri name)
  | datatype l d hd =>
    exact .of_operand (List.mem_singleton_self _) (has_term.mpr (Or.inr (Or.inr he')))
  | concat args hinner =>
    rcases has_call.mp he' with hkind | ⟨a, ha, he'⟩
    · exact has_call.mpr (Or.inl (h.call hkind))
    · rcases mem_spliced.mp ha with ⟨ha, -⟩ | ⟨inner, hinner, ha⟩
      · exact .of_operand ha he'
      · exact .of_operand hinner (.of_operand ha he')

end

namespace Evaluator

/-! ## Kinds that are inherited -/

/-- A kind of nodes that neither the standard rules nor folding bring into an expression. -/
structure Inherited (ev : Evaluator) (kind : Expr → Prop) : Prop extends Unbuilt kind where
  folded : ∀ {e}, (ev.folded e).Has kind → e.Has kind

section

variable {ev : Evaluator} {kind : Expr → Prop} (h : ev.Inherited kind)

include h

theorem Inherited.of_onOperands {eval next : Expr → Expr} {e : Expr}
    (heval : ∀ a ∈ e.operands, (eval a).Has kind → a.Has kind)
    (hnext : (next (e.mapOperands eval)).Has kind → (e.mapOperands eval).Has kind)
    (he : (onOperands eval next e).Has kind) : e.Has kind := by
  rcases onOperands_cases eval next e with ⟨a, ha, htype, heq⟩ | ⟨-, heq⟩
  · rw [heq, ← htype] at he
    exact .of_operand ha (heval a ha he)
  · rw [heq] at he
    exact has_of_mapOperands h.head heval (hnext he)

theorem Inherited.of_settled (hev : ev.HasStandardRules) {eval : Expr → Expr} {e : Expr}
    (heval : ∀ a, a.size < e.size → (eval a).Has kind → a.Has kind)
    (he : (ev.settled eval e).Has kind) : e.Has kind := by
  unfold settled at he
  cases hrule : ev.rewritten? e with
  | none =>
    rw [hrule] at he
    exact h.folded he
  | some e' =>
    rw [hrule] at he
    have hstep := hev.step hrule
    have hoperand : ∀ a ∈ e'.operands, (eval a).Has kind → a.Has kind :=
      fun a ha => heval a (hev.nonGrowing.size_operand_lt hrule ha)
    exact h.of_step hstep (h.of_onOperands hoperand h.folded he)

theorem Inherited.of_evaluate_empty (hev : ev.HasStandardRules) {e : Expr}
    (he : (ev.evaluate ∅ e).Has kind) : e.Has kind := by
  induction e using unboundInduction hev.nonGrowing with
  | const v => exact he
  | var x =>
    rw [evaluate_var_empty hev.nonGrowing] at he
    exact he
  | node e hnode hoperands hsmaller =>
    rw [evaluate_node hev.nonGrowing ∅ hnode] at he
    exact h.of_onOperands (fun a ha => hoperands a ha)
      (h.of_settled hev fun a ha => hsmaller a ha) he

/-- Nodes of a kind that is inherited come from the expression, or from an expression bound to one
of its variables. -/
theorem Inherited.of_evaluate (hev : ev.HasStandardRules) {b : Binding} {e : Expr}
    (he : (ev.evaluate b e).Has kind) :
    e.Has kind ∨ ∃ x a, (var x).OccursIn e ∧ b.find? x = some a ∧ a.Has kind := by
  rw [evaluate_substitute hev.nonGrowing] at he
  exact has_substitute h.head (h.of_evaluate_empty hev he)

end

end Evaluator

end Residual
