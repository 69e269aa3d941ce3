import Residual.Evaluation.Log
import Residual.Proofs.Position
import Residual.Proofs.Runs

/-!
# Type errors pass to the top

A type error among the operands of a node is the result of the node. The operands after the first
one are not evaluated, the rules are not offered the node, and it is not folded. So a type error at
any depth is the result of the whole, and what is asked for a node is what is asked for its operands
up to the first type error. Rules are arbitrary here; only evaluations that end are considered.

* `Evaluator.Asks`: an evaluation ends, and these are its questions.
* `Evaluator.evaluateOperands_stops`: operands up to the first type error.
* `Evaluator.run_of_typeError`, `Evaluator.eq_typeError_of_subexpr`: one level and any number of
  levels.
* `Evaluator.typeError_propagates`: the result and the questions.
-/

namespace Residual.Evaluator

open Residual.Expr Run

/-- An evaluation ends, and these are the questions asked on the way. -/
def Asks (ev : Evaluator) (b : Binding) (e : Expr) (asked : List Event) : Prop :=
  ∃ depth r, ev.run depth b e = some (r, asked)

/-! ## Operands -/

section

variable {eval : Expr → Run Expr} {es : List Expr} {a : Expr} {answer : Option (List Expr)}
  {asked : List Event}

theorem evaluateOperands_of_typeError (ha : a ∈ es)
    (htype : ∀ v first, eval a = some (v, first) → v = typeError)
    (h : evaluateOperands eval es = some (answer, asked)) : answer = none := by
  have hkeeps : ∀ c ∈ es, (eval c).Keeps (fun v => ∃ first, eval c = some (v, first))
      fun _ => True := fun c _ v first hv => ⟨⟨first, hv⟩, fun _ _ => trivial⟩
  have hvalues := (keeps_evaluateOperands hkeeps answer asked h).1
  cases answer with
  | none => rfl
  | some vs =>
    obtain ⟨v, -, ⟨first, hv⟩, hno⟩ := exists_of_forall₂ (hvalues vs rfl) ha
    exact absurd (htype v first hv) hno

/-- Operands are evaluated up to the first type error among them. -/
theorem evaluateOperands_stops {i : Nat} (ha : es[i]? = some a)
    (htype : ∀ v first, eval a = some (v, first) → v = typeError)
    (hbefore : ∀ c ∈ es.take i, ∀ v first, eval c = some (v, first) → v ≠ typeError)
    (h : evaluateOperands eval es = some (answer, asked)) :
    ∃ traces, List.Forall₂ (fun c first => ∃ v, eval c = some (v, first)) (es.take (i + 1)) traces ∧
      asked = traces.flatten := by
  induction es generalizing i answer asked with
  | nil => cases ha
  | cons e es ih =>
    rw [evaluateOperands] at h
    obtain ⟨v, first, rest, hv, hrest, rfl⟩ := bind_eq_some_iff.mp h
    cases i with
    | zero =>
      cases ha
      rw [htype v first hv, if_pos (isTypeError_iff.mpr rfl)] at hrest
      cases hrest
      exact ⟨[first], .cons ⟨v, hv⟩ .nil, by simp⟩
    | succ i =>
      have hno : ¬ v.isTypeError = true := fun htype =>
        hbefore e List.mem_cons_self v first hv (isTypeError_iff.mp htype)
      rw [if_neg hno] at hrest
      obtain ⟨vs, first', rest', hvs, hdone, rfl⟩ := bind_eq_some_iff.mp hrest
      cases hdone
      obtain ⟨traces, htraces, rfl⟩ :=
        ih ha (fun c hc => hbefore c (List.mem_cons_of_mem e hc)) hvs
      exact ⟨first :: traces, .cons ⟨v, hv⟩ htraces, by simp⟩

end

/-! ## Nodes -/

section

variable {ev : Evaluator} {outer inner : Expr → Run Expr} {e r : Expr} {asked : List Event}

theorem evaluateNode_of_none (h : evaluateOperands outer e.operands = some (none, asked)) :
    ev.evaluateNode outer inner e = some (typeError, asked) := by
  refine bind_eq_some_iff.mpr ⟨none, asked, [], ?_, rfl, (List.append_nil asked).symm⟩
  exact bind_eq_some_iff.mpr ⟨none, asked, [], h, rfl, (List.append_nil asked).symm⟩

/-- If the operands of a node give no node to go on with, the questions about them are all there
are. -/
theorem evaluateNode_stops
    (hnone : ∀ answer first, evaluateOperands outer e.operands = some (answer, first) →
      answer = none)
    (h : ev.evaluateNode outer inner e = some (r, asked)) :
    evaluateOperands outer e.operands = some (none, asked) ∧ r = typeError := by
  obtain ⟨rebuilt, first, rest, hrebuild, -, -⟩ := bind_eq_some_iff.mp h
  obtain ⟨answer, first', rest', hoperands, -, -⟩ := bind_eq_some_iff.mp hrebuild
  obtain rfl := hnone answer first' hoperands
  have hnode : ev.evaluateNode outer inner e = some (typeError, first') :=
    evaluateNode_of_none hoperands
  rw [h] at hnode
  cases hnode
  exact ⟨hoperands, rfl⟩

end

/-! ## Expressions -/

section

variable {ev : Evaluator} {depth : Nat} {b : Binding} {e a r : Expr} {asked : List Event}

/-- The step: an operand whose evaluation ends with nothing but the type error, if it is reached
and ends at all, makes it the result of the node. -/
theorem run_of_typeError (ha : a ∈ e.operands)
    (htype : ∀ v, ev.Returns b a v → v = typeError) (h : ev.run depth b e = some (r, asked)) :
    r = typeError ∧ ∃ depth, evaluateOperands (ev.run depth b) e.operands = some (none, asked) := by
  cases depth with
  | zero => cases h
  | succ depth =>
    rw [run_node ev depth b (isNode_of_mem_operands ha)] at h
    have hnone : ∀ answer first,
        evaluateOperands (ev.run depth b) e.operands = some (answer, first) → answer = none :=
      fun answer first => evaluateOperands_of_typeError ha fun v first hv =>
        htype v (returns_iff_exists_run.mpr ⟨first, depth, hv⟩)
    obtain ⟨hoperands, rfl⟩ := evaluateNode_stops hnone h
    exact ⟨rfl, depth, hoperands⟩

theorem eq_typeError_of_subexpr {p : List Nat} (hr : ev.Returns b e r)
    (ha : e.subexprAt? p = some a) (htype : ev.Returns b a typeError) : r = typeError := by
  induction p generalizing e r with
  | nil =>
    cases ha
    exact hr.unique htype
  | cons i p ih =>
    -- the operand that the position enters may come after another type error and not be evaluated
    obtain ⟨c, hc, ha⟩ := subexprAt?_cons_eq_some_iff.mp ha
    obtain ⟨asked, depth, hrun⟩ := returns_iff_exists_run.mp hr
    exact (run_of_typeError (List.mem_of_getElem? hc) (fun v hv => ih hv ha) hrun).1

theorem asked_of_typeError {i : Nat} (ha : e.operands[i]? = some a)
    (htype : ev.Returns b a typeError)
    (hbefore : ∀ c ∈ e.operands.take i, ¬ ev.Returns b c typeError)
    (h : ev.run depth b e = some (r, asked)) :
    ∃ traces, List.Forall₂ (ev.Asks b) (e.operands.take (i + 1)) traces ∧
      asked = traces.flatten := by
  obtain ⟨-, depth, hoperands⟩ :=
    run_of_typeError (List.mem_of_getElem? ha) (fun v hv => hv.unique htype) h
  have hreturns : ∀ c v first, ev.run depth b c = some (v, first) → ev.Returns b c v :=
    fun c v first hv => returns_iff_exists_run.mpr ⟨first, depth, hv⟩
  obtain ⟨traces, htraces, rfl⟩ := evaluateOperands_stops ha
    (fun v first hv => (hreturns a v first hv).unique htype)
    (fun c hc v first hv hv' => hbefore c hc (hv' ▸ hreturns c v first hv)) hoperands
  exact ⟨traces, htraces.imp fun c first ⟨v, hv⟩ => ⟨depth, v, hv⟩, rfl⟩

end

/-- **Propagation of type errors.** Whatever the registry, the rules, the evaluator of constants and
the binding, an evaluation that ends has the type error for its result if the subexpression at some
position evaluates to it. If an operand of the expression is the first to do so, all that is asked
is what is asked for the operands up to this one, in order; the nodes whose values are asked for, in
particular, are those of these operands. -/
theorem typeError_propagates {ev : Evaluator} {depth : Nat} {b : Binding} {e r : Expr}
    {asked : List Event} (h : ev.run depth b e = some (r, asked)) :
    (∀ p a, e.subexprAt? p = some a → ev.Returns b a typeError → r = typeError) ∧
    ∀ i a, e.operands[i]? = some a → ev.Returns b a typeError →
      (∀ c ∈ e.operands.take i, ¬ ev.Returns b c typeError) →
      ∃ traces, List.Forall₂ (ev.Asks b) (e.operands.take (i + 1)) traces ∧
        asked = traces.flatten ∧
        asked.filterMap Event.foldedNode? =
          (traces.map fun first => first.filterMap Event.foldedNode?).flatten := by
  have hreturns : ev.Returns b e r := returns_iff_exists_run.mpr ⟨asked, depth, h⟩
  refine ⟨fun p a ha htype => eq_typeError_of_subexpr hreturns ha htype, ?_⟩
  intro i a ha htype hbefore
  obtain ⟨traces, htraces, rfl⟩ := asked_of_typeError ha htype hbefore h
  exact ⟨traces, htraces, rfl, List.filterMap_flatten⟩

/-- A failed comparison two levels down, after a call that is rewritten and folded. The rule for the
call at the top never sees it, and the sum after the comparison is not folded. -/
theorem typeError_propagates_at :
    let ev : Evaluator := {
      registry := .builtins
      rules := some (.ofList [("f", fun _ => some (const (.boolean true))),
        ("twice", fun c => some (apply .concat (c.args ++ c.args)))]) }
    let part := apply .concat [const (.string "a"), const (.string "b")]
    let wrong := apply .lt [const (.integer 1), const (.string "a")]
    let b : Binding := Dictionary.ofList [("x", part)]
    let e := call (some "f") [call (some "twice") [var "x"], apply .not [wrong],
      apply .add [const (.integer 1), const (.integer 2)]]
    ∃ r asked, ev.run 5 b e = some (r, asked) ∧ e.subexprAt? [1, 0] = some wrong ∧
      r = typeError ∧
      asked.filterMap Event.foldedNode? =
        [part, apply .concat [const (.string "ab"), const (.string "ab")], wrong] ∧
      ∃ traces,
        List.Forall₂ (ev.Asks b) [call (some "twice") [var "x"], apply .not [wrong]] traces ∧
        asked.filterMap Event.foldedNode? =
          (traces.map fun first => first.filterMap Event.foldedNode?).flatten := by
  intro ev part wrong b e
  have hfolded : (ev.run 5 b e).trace.filterMap Event.foldedNode? =
    [part, apply .concat [const (.string "ab"), const (.string "ab")], wrong] := rfl
  obtain ⟨⟨r, asked⟩, h⟩ : ∃ p, ev.run 5 b e = some p := ⟨_, rfl⟩
  rw [h] at hfolded
  have hwrong : ev.Returns b wrong typeError := ⟨2, rfl⟩
  have hnot : ev.Returns b (apply .not [wrong]) typeError := ⟨3, rfl⟩
  have htwice : ev.Returns b (call (some "twice") [var "x"]) (const (.string "abab")) := ⟨4, rfl⟩
  have hbefore : ∀ c ∈ e.operands.take 1, ¬ ev.Returns b c typeError := by
    intro c hc hreturns
    rw [List.mem_singleton.mp hc] at hreturns
    cases htwice.unique hreturns
  obtain ⟨hresult, hasked⟩ := typeError_propagates h
  obtain ⟨traces, htraces, -, hnodes⟩ := hasked 1 (apply .not [wrong]) rfl hnot hbefore
  exact ⟨r, asked, h, rfl, hresult [1, 0] wrong rfl hwrong, hfolded, traces, htraces, hnodes⟩

end Residual.Evaluator
