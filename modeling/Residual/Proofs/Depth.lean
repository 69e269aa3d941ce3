import Residual.Evaluation.Evaluator

/-!
# Evaluations within a depth

A run that ends within some depth ends in the same way within every greater one. Hence an
evaluation has at most one result, whatever the depth that it takes.

* `Run.bind_eq_some_iff`: a run of two parts ends if both do, with the questions of both.
* `Run.Le`: a run that gives whatever another one gives.
* `Evaluator.run_le`: more depth keeps a result and the questions asked for it.
* `Evaluator.Returns`: an evaluation ends with a result.
-/

namespace Residual

namespace Run

variable {α β : Type}

/-! ## Results -/

@[simp] theorem result?_pure (a : α) : (pure a : Run α).result? = some a := rfl

@[simp] theorem result?_ask (e : Event) (a : α) : (ask e a).result? = some a := rfl

@[simp] theorem result?_bind (x : Run α) (f : α → Run β) :
    (x >>= f).result? = x.result?.bind fun a => (f a).result? := by
  show (andThen x f).result? = _
  unfold andThen
  rcases x with - | ⟨a, asked⟩
  · rfl
  · show Option.map Prod.fst _ = Option.map Prod.fst (f a)
    dsimp only
    cases f a <;> rfl

theorem bind_eq_some_iff {x : Run α} {f : α → Run β} {b : β} {asked : List Event} :
    x >>= f = some (b, asked) ↔
      ∃ a first rest, x = some (a, first) ∧ f a = some (b, rest) ∧ asked = first ++ rest := by
  show andThen x f = some (b, asked) ↔ _
  unfold andThen
  constructor
  · intro h
    rcases x with - | ⟨a, first⟩
    · cases h
    · dsimp only at h
      cases hfa : f a with
      | none =>
        rw [hfa] at h
        cases h
      | some p =>
        rw [hfa] at h
        cases h
        exact ⟨a, first, p.2, rfl, hfa, rfl⟩
  · rintro ⟨a, first, rest, rfl, hfa, rfl⟩
    dsimp only
    rw [hfa]

/-! ## Runs that agree as far as one of them goes -/

/-- The second run gives whatever the first one gives. -/
def Le (x y : Run α) : Prop := ∀ r, x = some r → y = some r

theorem Le.refl (x : Run α) : x.Le x := fun _ h => h

theorem stop_le (x : Run α) : (stop : Run α).Le x := by
  intro a h
  cases h

theorem Le.result {x y : Run α} (h : x.Le y) {a : α} (hx : x.result? = some a) :
    y.result? = some a := by
  obtain ⟨r, hr, rfl⟩ := Option.map_eq_some_iff.mp hx
  exact Option.map_eq_some_iff.mpr ⟨r, h r hr, rfl⟩

theorem Le.bind {x y : Run α} {f g : α → Run β} (h : x.Le y) (hf : ∀ a, (f a).Le (g a)) :
    (x >>= f).Le (y >>= g) := by
  rintro ⟨b, asked⟩ hr
  obtain ⟨a, first, rest, hx, hfa, rfl⟩ := bind_eq_some_iff.mp hr
  exact bind_eq_some_iff.mpr ⟨a, first, rest, h _ hx, hf a _ hfa, rfl⟩

end Run

namespace Evaluator

open Run

/-! ## More depth -/

theorem evaluateOperands_le {f g : Expr → Run Expr} {es : List Expr}
    (h : ∀ e ∈ es, (f e).Le (g e)) : (evaluateOperands f es).Le (evaluateOperands g es) := by
  induction es with
  | nil => exact Le.refl _
  | cons e es ih =>
    rw [evaluateOperands, evaluateOperands]
    refine (h e List.mem_cons_self).bind fun v => ?_
    split
    · exact Le.refl _
    · exact (ih fun a ha => h a (List.mem_cons_of_mem e ha)).bind fun vs => Le.refl _

theorem rebuild_le {f g : Expr → Run Expr} (h : ∀ e, (f e).Le (g e)) (e : Expr) :
    (rebuild f e).Le (rebuild g e) :=
  (evaluateOperands_le fun a _ => h a).bind fun _ => Le.refl _

theorem settle_le (ev : Evaluator) {f g : Expr → Run Expr} (h : ∀ e, (f e).Le (g e)) (e : Expr) :
    (ev.settle f e).Le (ev.settle g e) := by
  refine (Le.refl _).bind fun answer => ?_
  cases answer with
  | none => exact Le.refl _
  | some rewritten => exact (rebuild_le h rewritten).bind fun _ => Le.refl _

theorem evaluateNode_le (ev : Evaluator) {outer outer' inner inner' : Expr → Run Expr}
    (ho : ∀ e, (outer e).Le (outer' e)) (hi : ∀ e, (inner e).Le (inner' e)) (e : Expr) :
    (ev.evaluateNode outer inner e).Le (ev.evaluateNode outer' inner' e) := by
  refine (rebuild_le ho e).bind fun rebuilt => ?_
  cases rebuilt with
  | none => exact Le.refl _
  | some e' => exact settle_le ev hi e'

theorem run_le (ev : Evaluator) {m n : Nat} (h : m ≤ n) (b : Binding) (e : Expr) :
    (ev.run m b e).Le (ev.run n b e) := by
  induction m generalizing n b e with
  | zero => exact stop_le _
  | succ m ih =>
    obtain ⟨n, rfl⟩ : ∃ k, n = k + 1 := ⟨n - 1, by omega⟩
    have hdeeper : ∀ b e, (ev.run m b e).Le (ev.run n b e) := fun b e => ih (by omega) b e
    cases e with
    | const v => exact Le.refl _
    | var x =>
      rw [run, run]
      split
      · exact hdeeper ∅ _
      · exact Le.refl _
    | call name args => exact evaluateNode_le ev (hdeeper b) (hdeeper ∅) _
    | term l d => exact evaluateNode_le ev (hdeeper b) (hdeeper ∅) _

/-! ## The result of an evaluation -/

/-- An evaluation ends, and this is its result. -/
def Returns (ev : Evaluator) (b : Binding) (e r : Expr) : Prop :=
  ∃ depth, (ev.run depth b e).result? = some r

theorem Returns.unique {ev : Evaluator} {b : Binding} {e r s : Expr} (hr : ev.Returns b e r)
    (hs : ev.Returns b e s) : r = s := by
  obtain ⟨m, hm⟩ := hr
  obtain ⟨n, hn⟩ := hs
  have hm' := (run_le ev (Nat.le_max_left m n) b e).result hm
  have hn' := (run_le ev (Nat.le_max_right m n) b e).result hn
  exact Option.some.inj (hm'.symm.trans hn')

end Evaluator

end Residual
