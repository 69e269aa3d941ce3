import Mathlib.Algebra.Order.BigOperators.Group.List
import Mathlib.Algebra.Ring.Int.Defs
import Residual.Proofs.Runs

/-!
# Weights of questions

A run is charged for its questions: each has a weight, which may be negative, and those of a run are
summed up. Bounds on the sum add up from the parts of a run to the whole. If folding a node costs at
most one and a refusal of the rules costs nothing, then a node costs at most one more than its
operands, unless it is rewritten; then it costs what the rewriting is charged, and what the operands
that the rule built cost, as well.

* `Run.Weighs`: a bound on the weights of the questions of a run.
* `Evaluator.weighs_rebuild`: the operands of a node.
* `Evaluator.weighs_settle_of_none`, `Evaluator.weighs_settle_of_some`: a node with evaluated
  operands, if no rule accepts it and if one does.
* `Evaluator.weighs_evaluateNode`: a node.
-/

namespace Residual

open Residual.Expr

namespace Run

variable {α β : Type} {w : Event → Int}

/-- The weights of the questions of a run sum up to at most `n`. -/
def Weighs (w : Event → Int) (x : Run α) (n : Int) : Prop :=
  ∀ a asked, x = some (a, asked) → (asked.map w).sum ≤ n

theorem weighs_stop {n : Int} : (stop : Run α).Weighs w n := by
  intro a asked h
  cases h

theorem weighs_pure (a : α) : (pure a : Run α).Weighs w 0 := by
  intro b asked h
  cases h
  exact Int.le_refl 0

theorem weighs_ask (q : Event) (a : α) : (ask q a).Weighs w (w q) := by
  intro b asked h
  cases h
  simp

theorem Weighs.bind {x : Run α} {f : α → Run β} {m n : Int} (hx : x.Weighs w m)
    (hf : ∀ a, x.result? = some a → (f a).Weighs w n) : (x >>= f).Weighs w (m + n) := by
  intro b asked h
  obtain ⟨a, first, rest, ha, hb, rfl⟩ := bind_eq_some_iff.mp h
  have hfirst := hx a first ha
  have hrest := hf a (by rw [ha]; rfl) b rest hb
  rw [List.map_append, List.sum_append]
  omega

theorem Weighs.mono {x : Run α} {m n : Int} (h : x.Weighs w m) (hmn : m ≤ n) : x.Weighs w n :=
  fun a asked ha => Int.le_trans (h a asked ha) hmn

end Run

namespace Evaluator

open Run

variable {w : Event → Int} {eval : Expr → Run Expr} {ev : Evaluator}

/-! ## Operands -/

/-- Operands after the first type error are not evaluated, and cost nothing. -/
theorem weighs_evaluateOperands {cost : Expr → Nat} {es : List Expr}
    (h : ∀ a ∈ es, (eval a).Weighs w (cost a)) :
    (evaluateOperands eval es).Weighs w ((es.map cost).sum : Nat) := by
  induction es with
  | nil => exact weighs_pure _
  | cons e es ih =>
    have hrest := ih fun a ha => h a (List.mem_cons_of_mem e ha)
    have hsum : (((e :: es).map cost).sum : Nat) = (cost e : Int) + ((es.map cost).sum : Nat) := by
      rw [List.map_cons, List.sum_cons, Int.natCast_add]
    rw [evaluateOperands, hsum]
    refine (h e List.mem_cons_self).bind fun v _ => ?_
    split
    · exact (weighs_pure _).mono (Int.natCast_nonneg _)
    · exact (hrest.bind fun vs _ => weighs_pure _).mono (Int.le_of_eq (Int.add_zero _))

theorem weighs_rebuild {cost : Expr → Nat} {e : Expr}
    (h : ∀ a ∈ e.operands, (eval a).Weighs w (cost a)) :
    (rebuild eval e).Weighs w ((e.operands.map cost).sum : Nat) :=
  ((weighs_evaluateOperands h).bind fun _ _ => weighs_pure _).mono (Int.le_of_eq (Int.add_zero _))

/-! ## Nodes -/

/-- Without rules nothing is asked. -/
theorem weighs_offer {e : Expr} {n : Int} (hnone : ev.rules = none → 0 ≤ n)
    (h : w (.offered e (ev.rewritten? e)) ≤ n) : (ev.offer e).Weighs w n := by
  unfold rewritten? at h
  unfold offer
  cases hrules : ev.rules with
  | none => exact (weighs_pure _).mono (hnone hrules)
  | some table =>
    rw [hrules] at h
    exact (weighs_ask _ _).mono h

section

variable (hfold : ∀ n answer, w (.folded n answer) ≤ 1) {e : Expr}

include hfold

theorem weighs_fold (e : Expr) : (ev.fold e).Weighs w 1 := by
  unfold fold
  split
  · exact (weighs_ask _ _).mono (hfold _ _)
  · exact (weighs_pure _).mono Int.one_nonneg

theorem weighs_settle_of_none (hrefused : ∀ n, w (.offered n none) ≤ 0)
    (hrule : ev.rewritten? e = none) : (ev.settle eval e).Weighs w 1 := by
  have hoffer : (ev.offer e).Weighs w 0 :=
    weighs_offer (fun _ => Int.le_refl 0) (hrule ▸ hrefused e)
  refine (hoffer.bind fun answer hanswer => ?_).mono (Int.le_of_eq (Int.zero_add 1))
  rw [offer_result, hrule] at hanswer
  cases hanswer
  exact weighs_fold hfold e

theorem weighs_settle_of_some {e' : Expr} {cost : Expr → Nat} (hrule : ev.rewritten? e = some e')
    (h : ∀ a ∈ e'.operands, (eval a).Weighs w (cost a)) :
    (ev.settle eval e).Weighs w
      (w (.offered e (some e')) + (((e'.operands.map cost).sum : Nat) + 1)) := by
  have hoffer : (ev.offer e).Weighs w (w (.offered e (some e'))) := by
    refine weighs_offer (fun hrules => ?_) (Int.le_of_eq (by rw [hrule]))
    rw [rewritten?, hrules] at hrule
    cases hrule
  refine hoffer.bind fun answer hanswer => ?_
  rw [offer_result, hrule] at hanswer
  cases hanswer
  refine (weighs_rebuild h).bind fun rebuilt _ => ?_
  cases rebuilt with
  | none => exact (weighs_pure _).mono Int.one_nonneg
  | some e'' => exact weighs_fold hfold e''

end

theorem weighs_evaluateNode {inner : Expr → Run Expr} {cost : Expr → Nat} {e : Expr} {n : Nat}
    (h : ∀ a ∈ e.operands, (eval a).Weighs w (cost a))
    (hsettle : ∀ e', (rebuild eval e).result? = some (some e') → (ev.settle inner e').Weighs w n) :
    (ev.evaluateNode eval inner e).Weighs w ((e.operands.map cost).sum + n : Nat) := by
  rw [Int.natCast_add]
  refine (weighs_rebuild h).bind fun rebuilt hrebuilt => ?_
  cases rebuilt with
  | none => exact (weighs_pure _).mono (Int.natCast_nonneg n)
  | some e' => exact hsettle e' hrebuilt

end Evaluator

end Residual
