import Residual.Proofs.Constant
import Residual.Proofs.Equations

/-!
# What runs keep

A property of results and of the questions asked for them passes from the parts of a run to the
whole.

* `Run.Keeps`: what holds of the result of a run and of all its questions.
* `Evaluator.keeps_rebuild`: a node whose operands are evaluated, one after the other.
* `Evaluator.keeps_settle`, `Evaluator.keeps_evaluateNode`: rewriting and folding of such a node.
-/

namespace Residual

open Residual.Expr

namespace Run

variable {α β : Type}

/-- Every result of a run satisfies `Q`, and every question asked for it satisfies `P`. -/
def Keeps (x : Run α) (Q : α → Prop) (P : Event → Prop) : Prop :=
  ∀ a asked, x = some (a, asked) → Q a ∧ ∀ q ∈ asked, P q

variable {Q : α → Prop} {P : Event → Prop}

theorem keeps_stop : (stop : Run α).Keeps Q P := by
  intro a asked h
  cases h

theorem keeps_pure {a : α} (h : Q a) : (pure a : Run α).Keeps Q P := by
  intro b asked hb
  cases hb
  exact ⟨h, by simp⟩

theorem keeps_ask {q : Event} {a : α} (hq : P q) (h : Q a) : (ask q a).Keeps Q P := by
  intro b asked hb
  cases hb
  exact ⟨h, by simpa using hq⟩

theorem Keeps.bind {x : Run α} {f : α → Run β} {R : β → Prop} (hx : x.Keeps Q P)
    (hf : ∀ a, Q a → (f a).Keeps R P) : (x >>= f).Keeps R P := by
  intro b asked h
  obtain ⟨a, first, rest, ha, hb, rfl⟩ := bind_eq_some_iff.mp h
  obtain ⟨hQ, hfirst⟩ := hx a first ha
  obtain ⟨hR, hrest⟩ := hf a hQ b rest hb
  refine ⟨hR, fun q hq => ?_⟩
  rcases List.mem_append.mp hq with hq | hq
  · exact hfirst q hq
  · exact hrest q hq

theorem Keeps.mono {x : Run α} {Q' : α → Prop} {P' : Event → Prop} (h : x.Keeps Q P)
    (hQ : ∀ a, Q a → Q' a) (hP : ∀ q, P q → P' q) : x.Keeps Q' P' := by
  intro a asked ha
  obtain ⟨hresult, hasked⟩ := h a asked ha
  exact ⟨hQ a hresult, fun q hq => hP q (hasked q hq)⟩

end Run

namespace Evaluator

open Run

/-! ## Operands -/

/-- An operand of a node with evaluated operands is the result of one. -/
theorem exists_operand_of_forall₂ {R : Expr → Expr → Prop} {e : Expr} {vs : List Expr}
    (h : List.Forall₂ R e.operands vs) {v : Expr} (hv : v ∈ (e.withOperands vs).operands) :
    ∃ a ∈ e.operands, R a v := by
  rw [operands_withOperands h.length_eq.symm] at hv
  exact exists_of_forall₂ h.flip hv

section

variable {P : Event → Prop} {eval : Expr → Run Expr} {Q : Expr → Expr → Prop}

theorem keeps_evaluateOperands {es : List Expr} (h : ∀ a ∈ es, (eval a).Keeps (Q a) P) :
    (evaluateOperands eval es).Keeps (fun answer => ∀ vs, answer = some vs →
      List.Forall₂ (fun a v => Q a v ∧ v ≠ typeError) es vs) P := by
  induction es with
  | nil =>
    refine keeps_pure fun vs hvs => ?_
    cases hvs
    exact .nil
  | cons e es ih =>
    rw [evaluateOperands]
    refine (h e List.mem_cons_self).bind fun v hv => ?_
    split
    · exact keeps_pure fun vs hvs => by cases hvs
    · rename_i htype
      refine (ih fun a ha => h a (List.mem_cons_of_mem e ha)).bind fun answer hanswer => ?_
      refine keeps_pure fun vs hvs => ?_
      obtain ⟨vs, rfl, rfl⟩ := Option.map_eq_some_iff.mp hvs
      exact .cons ⟨hv, fun h => htype (isTypeError_iff.mpr h)⟩ (hanswer vs rfl)

theorem keeps_rebuild {e : Expr} (h : ∀ a ∈ e.operands, (eval a).Keeps (Q a) P) :
    (rebuild eval e).Keeps (fun answer => ∀ e', answer = some e' →
      ∃ vs, List.Forall₂ (fun a v => Q a v ∧ v ≠ typeError) e.operands vs ∧
        e' = e.withOperands vs) P := by
  refine (keeps_evaluateOperands h).bind fun answer hanswer => keeps_pure fun e' he' => ?_
  obtain ⟨vs, rfl, rfl⟩ := Option.map_eq_some_iff.mp he'
  exact ⟨vs, hanswer vs rfl, rfl⟩

/-! ## Nodes -/

variable {ev : Evaluator} {R : Expr → Prop}

theorem keeps_offer {e : Expr}
    (hoffer : ∀ table, ev.rules = some table → P (.offered e (table.tryRewrite e))) :
    (ev.offer e).Keeps (fun answer => answer = ev.rewritten? e) P := by
  unfold offer rewritten?
  cases hrules : ev.rules with
  | none => exact keeps_pure rfl
  | some table => exact keeps_ask (hoffer table hrules) rfl

theorem keeps_settle {e : Expr}
    (hoffer : ∀ table, ev.rules = some table → P (.offered e (table.tryRewrite e)))
    (hinner : ∀ e', ev.rewritten? e = some e' → ∀ a ∈ e'.operands, (eval a).Keeps (Q a) P)
    (htype : R typeError) (hself : (ev.fold e).Keeps R P)
    (hrebuilt : ∀ (e' : Expr) (vs : List Expr),
      List.Forall₂ (fun a v => Q a v ∧ v ≠ typeError) e'.operands vs →
        (ev.fold (e'.withOperands vs)).Keeps R P) :
    (ev.settle eval e).Keeps R P := by
  refine (keeps_offer hoffer).bind fun answer hanswer => ?_
  cases answer with
  | none => exact hself
  | some e' =>
    refine (keeps_rebuild (hinner e' hanswer.symm)).bind fun rebuilt hresults => ?_
    cases rebuilt with
    | none => exact keeps_pure htype
    | some e'' =>
      obtain ⟨vs, hvs, rfl⟩ := hresults e'' rfl
      exact hrebuilt e' vs hvs

theorem keeps_evaluateNode {inner : Expr → Run Expr} {e : Expr}
    (houter : ∀ a ∈ e.operands, (eval a).Keeps (Q a) P) (htype : R typeError)
    (hsettle : ∀ vs, List.Forall₂ (fun a v => Q a v ∧ v ≠ typeError) e.operands vs →
      (ev.settle inner (e.withOperands vs)).Keeps R P) :
    (ev.evaluateNode eval inner e).Keeps R P := by
  refine (keeps_rebuild houter).bind fun rebuilt hresults => ?_
  cases rebuilt with
  | none => exact keeps_pure htype
  | some e' =>
    obtain ⟨vs, hvs, rfl⟩ := hresults e' rfl
    exact hsettle vs hvs

end

end Evaluator

end Residual
