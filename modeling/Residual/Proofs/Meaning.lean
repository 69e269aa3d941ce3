import Residual.Settings.Basic
import Residual.Proofs.Concatenation
import Residual.Proofs.NormalForm

/-!
# Evaluation keeps the meaning

What an expression denotes under a substitution is the value that it has after the substitution. If
all operators are registered, the residual of an expression without typed terms denotes whatever
the expression denotes. Concatenations are spliced on the way, which would change language tags if
one of them were empty; but then it has been folded before.

* `Expr.TermFree`: expressions without typed terms.
* `Expr.Denotes`: the value of an expression under a substitution.
* `Evaluator.denotes_folded`, `denotes_spliced`: folding and splicing keep it.
* `Settings.evaluate_denotes`: so does evaluation.
-/

namespace Residual

open Residual.Expr Rule

/-- An expression without typed terms. -/
inductive Expr.TermFree : Expr → Prop
  | const (v : Value) : TermFree (const v)
  | var (x : String) : TermFree (var x)
  | call (name : Option String) (args : List Expr) (h : ∀ a ∈ args, TermFree a) :
    TermFree (call name args)

theorem Expr.TermFree.args {name : Option String} {args : List Expr}
    (h : TermFree (Expr.call name args)) : ∀ a ∈ args, TermFree a := by
  cases h with
  | call _ _ h => exact h

/-- Without typed terms, concatenations are all that the standard rules rewrite. -/
theorem StandardStep.spliced_of_termFree {e e' : Expr} (h : StandardStep e e') (he : e.TermFree) :
    ∃ args, e = apply .concat args ∧ e' = apply .concat (spliced args) := by
  have hterm : ∀ {l d : Expr}, ¬ TermFree (term l d) := by
    intro l d h
    cases h
  cases h with
  | str l d => exact absurd (he.args _ (List.mem_singleton_self _)) hterm
  | datatypeName l s => exact absurd (he.args _ (List.mem_singleton_self _)) hterm
  | datatype l d hd => exact absurd (he.args _ (List.mem_singleton_self _)) hterm
  | concat args hinner => exact ⟨args, rfl, rfl⟩

/-! ## Values under a substitution -/

/-- The value of an expression once its variables are replaced. -/
def Expr.Denotes (σ : Binding) (e : Expr) (v : Value) : Prop :=
  evaluateConstant (e.substitute σ) = .ok v

section

variable {σ : Binding}

theorem denotes_const_iff {v w : Value} : Denotes σ (const v) w ↔ v = w := by
  rw [Denotes, substitute_const, evaluateConstant, Except.ok.injEq]

theorem denotes_call_iff {name : Option String} {args : List Expr} {v : Value} :
    Denotes σ (call name args) v ↔
      ∃ op vs, Operator.ofCall name args.length = .ok op ∧ List.Forall₂ (Denotes σ) args vs ∧
        callValue op vs = .ok v := by
  rw [Denotes, substitute_node rfl, mapOperands_call, evaluateConstant_call_eq_ok_iff,
    List.length_map]
  simp only [List.forall₂_map_left_iff]
  rfl

theorem denotes_concat_iff {args : List Expr} {v : Value} :
    Denotes σ (apply .concat args) v ↔
      ∃ vs, List.Forall₂ (Denotes σ) args vs ∧ callValue .concat vs = .ok v := by
  rw [Denotes, substitute_node rfl]
  change evaluateConstant (apply .concat (args.map (substitute σ))) = .ok v ↔ _
  rw [evaluateConstant_concat_eq_ok_iff]
  simp only [List.forall₂_map_left_iff]
  rfl

theorem forall₂_denotes_map {f : Expr → Expr} {args : List Expr} {vs : List Value}
    (h : ∀ a ∈ args, ∀ w, Denotes σ a w → Denotes σ (f a) w)
    (hvs : List.Forall₂ (Denotes σ) args vs) : List.Forall₂ (Denotes σ) (args.map f) vs := by
  induction hvs with
  | nil => exact .nil
  | @cons a w args vs ha _ ih =>
    exact .cons (h a List.mem_cons_self w ha) (ih fun a' ha' => h a' (List.mem_cons_of_mem a ha'))

theorem denotes_map_args {f : Expr → Expr} {name : Option String} {args : List Expr} {v : Value}
    (h : ∀ a ∈ args, ∀ w, Denotes σ a w → Denotes σ (f a) w) (hv : Denotes σ (call name args) v) :
    Denotes σ (call name (args.map f)) v := by
  obtain ⟨op, vs, hop, hvs, hv⟩ := denotes_call_iff.mp hv
  refine denotes_call_iff.mpr ⟨op, vs, ?_, forall₂_denotes_map h hvs, hv⟩
  rwa [List.length_map]

/-- A call with the type error for an argument denotes the type error, if anything. -/
theorem eq_typeError_of_denotes_call {name : Option String} {args : List Expr} {a : Expr}
    {v : Value} (ha : a ∈ args) (htype : ∀ w, Denotes σ a w → w = .typeError)
    (hv : Denotes σ (call name args) v) : v = .typeError := by
  obtain ⟨op, vs, -, hvs, hvalue⟩ := denotes_call_iff.mp hv
  obtain ⟨w, hw, haw⟩ := exists_of_forall₂ hvs ha
  have hmem : .typeError ∈ vs := htype w haw ▸ hw
  rw [callValue_of_typeError hmem] at hvalue
  exact (Except.ok.inj hvalue).symm

/-- Splicing keeps the value of a concatenation in which no inner one is empty. -/
theorem denotes_spliced {args : List Expr} {v : Value} (hempty : apply .concat [] ∉ args)
    (hv : Denotes σ (apply .concat args) v) : Denotes σ (apply .concat (spliced args)) v := by
  obtain ⟨vs, hvs, hvalue⟩ := denotes_concat_iff.mp hv
  suffices h : ∃ wss, List.Forall₂ MadeOf vs wss ∧
      List.Forall₂ (Denotes σ) (spliced args) wss.flatten by
    obtain ⟨wss, hmade, hspliced⟩ := h
    exact denotes_concat_iff.mpr ⟨_, hspliced, callValue_concat_flatten hmade hvalue⟩
  clear hv hvalue
  induction hvs with
  | nil => exact ⟨[], .nil, .nil⟩
  | @cons a w args vs ha _ ih =>
    obtain ⟨wss, hmade, hspliced⟩ := ih fun hmem => hempty (List.mem_cons_of_mem a hmem)
    rw [spliced, List.flatMap_cons]
    cases hargs : concatArgs? a with
    | none => exact ⟨[w] :: wss, .cons (Or.inl rfl) hmade, .cons ha hspliced⟩
    | some inner =>
      obtain rfl := concatArgs?_eq_some_iff.mp hargs
      obtain ⟨ws, hws, hw⟩ := denotes_concat_iff.mp ha
      have hne : ws ≠ [] := by
        rintro rfl
        rw [List.forall₂_nil_right_iff.mp hws] at hempty
        exact hempty List.mem_cons_self
      exact ⟨ws :: wss, .cons (Or.inr ⟨hne, hw⟩) hmade, List.rel_append hws hspliced⟩

theorem Evaluator.denotes_folded {ev : Evaluator} (hev : ev.constants = evaluateConstant) {e : Expr}
    {v : Value} (he : e.isNode = true) (hv : Denotes σ e v) : Denotes σ (ev.folded e) v := by
  unfold folded
  split
  · rename_i hfold
    -- constants are not changed by the substitution, so that the node is folded to its value
    have hself : e.substitute σ = e := by
      rw [substitute_node he]
      refine mapOperands_eq_self fun a ha => ?_
      obtain ⟨w, rfl⟩ := operands_of_isFoldable hfold a ha
      exact substitute_const σ w
    have hvalue : evaluateConstant e = .ok v := by rwa [Denotes, hself] at hv
    rw [hev, hvalue]
    exact denotes_const_iff.mpr rfl
  · exact hv

end

/-! ## Evaluation without typed terms -/

namespace Evaluator

variable {ev : Evaluator} (hev : ev.HasStandardRules)

theorem termFree_folded {e : Expr} (he : e.TermFree) : (ev.folded e).TermFree := by
  rcases ev.folded_cases e with ⟨v, hv⟩ | hself
  · rw [hv]
    exact .const v
  · rwa [hself]

theorem termFree_spliced {args : List Expr} (h : ∀ a ∈ args, a.TermFree) :
    ∀ a ∈ spliced args, a.TermFree := by
  intro a ha
  rcases mem_spliced.mp ha with ⟨ha, -⟩ | ⟨inner, hinner, ha⟩
  · exact h a ha
  · exact (h _ hinner).args a ha

include hev

/-- A call without typed terms is folded with its arguments, or with these spliced. -/
theorem settled_of_termFree {name : Option String} {args : List Expr}
    (hfree : ∀ a ∈ args, a.TermFree) (h : ∀ a ∈ args, ev.IsNormal a ∧ a ≠ typeError) :
    ev.settled (ev.evaluate ∅) (call name args) = ev.folded (call name args) ∨
      name = some Operator.concat.name ∧
        ev.settled (ev.evaluate ∅) (call name args) = ev.folded (apply .concat (spliced args)) := by
  unfold settled
  cases hrule : ev.rewritten? (call name args) with
  | none => exact Or.inl rfl
  | some e' =>
    obtain ⟨args', heq, rfl⟩ := (hev.step hrule).spliced_of_termFree (.call name args hfree)
    cases heq
    exact Or.inr ⟨rfl, onOperands_of_isNormal hev (spliced_isNormal h)⟩

theorem normal_args {args : List Expr} (hno : ∀ a ∈ args, ev.evaluate ∅ a ≠ typeError) :
    ∀ a ∈ args.map (ev.evaluate ∅), ev.IsNormal a ∧ a ≠ typeError :=
  List.forall_mem_map.mpr fun a ha => ⟨isNormal_evaluate hev ∅ a, hno a ha⟩

theorem termFree_evaluate {e : Expr} (he : e.TermFree) : (ev.evaluate ∅ e).TermFree := by
  induction he with
  | const v => exact .const v
  | var x =>
    rw [evaluate_var_empty hev.nonGrowing]
    exact .var x
  | call name args _ ih =>
    rw [evaluate_node hev.nonGrowing ∅ rfl]
    refine onOperands_induction (.const _) fun hno => ?_
    have hfree : ∀ a ∈ args.map (ev.evaluate ∅), a.TermFree := List.forall_mem_map.mpr ih
    rw [mapOperands_call]
    rcases settled_of_termFree hev hfree (normal_args hev hno) with heq | ⟨-, heq⟩
    · rw [heq]
      exact termFree_folded (.call name _ hfree)
    · rw [heq]
      exact termFree_folded (.call _ _ (termFree_spliced hfree))

end Evaluator

/-! ## Settings with all operators -/

namespace Settings

variable {s : Settings}

theorem admits_operator (hs : s.builtins = true) (op : Operator) :
    s.registry.admits (some op.name) = true := by
  rw [registry, if_pos hs]
  exact Registry.admits_insertAll (Registry.admits_builtins op) _

theorem hasStandardRules (s : Settings) : s.evaluator.HasStandardRules := by
  unfold Evaluator.HasStandardRules evaluator
  cases s.transforms
  · exact Or.inl rfl
  · exact Or.inr rfl

theorem not_isNormal_concat_nil (hs : s.builtins = true) :
    ¬ s.evaluator.IsNormal (apply .concat []) := by
  intro h
  have hfold : s.evaluator.isFoldable (apply .concat []) = true := admits_operator hs .concat
  have hvalue : evaluateConstant (apply .concat []) = .ok (.string "") := by
    rw [apply, evaluateConstant_call_eq_ok_iff]
    refine ⟨.concat, [], Operator.ofCall_name (by simp [Operator.arity]), .nil, ?_⟩
    rw [callValue_of_noTypeError List.not_mem_nil]
    exact Fold.concatenation_eq_ok_iff.mpr ⟨by simp, rfl⟩
  have hfolded := h.folded_eq
  rw [Evaluator.folded_of_ok hfold hvalue] at hfolded
  cases hfolded

theorem denotes_evaluate (hs : s.builtins = true) {σ : Binding} {e : Expr} (he : e.TermFree)
    {v : Value} (hv : Denotes σ e v) : Denotes σ (s.evaluator.evaluate ∅ e) v := by
  have hev := s.hasStandardRules
  induction he generalizing v with
  | const w => exact hv
  | var x => rwa [Evaluator.evaluate_var_empty hev.nonGrowing]
  | call name args hargs ih =>
    rw [Evaluator.evaluate_node hev.nonGrowing ∅ rfl]
    rcases Evaluator.onOperands_cases (s.evaluator.evaluate ∅)
      (s.evaluator.settled (s.evaluator.evaluate ∅)) (call name args) with
      ⟨a, ha, htype, heq⟩ | ⟨hno, heq⟩
    · -- an argument that is folded to the type error denotes it, and so does the call
      have hv' : v = .typeError := by
        refine eq_typeError_of_denotes_call ha (fun w hw => ?_) hv
        have hw' := ih a ha hw
        rw [htype] at hw'
        exact (denotes_const_iff.mp hw').symm
      rw [heq]
      exact denotes_const_iff.mpr hv'.symm
    · have hdenotes : Denotes σ (call name (args.map (s.evaluator.evaluate ∅))) v :=
        denotes_map_args (fun a ha w hw => ih a ha hw) hv
      have hfree : ∀ a ∈ args.map (s.evaluator.evaluate ∅), a.TermFree :=
        List.forall_mem_map.mpr fun a ha => Evaluator.termFree_evaluate hev (hargs a ha)
      have hnormal := Evaluator.normal_args hev hno
      rw [heq, mapOperands_call]
      rcases Evaluator.settled_of_termFree hev hfree hnormal with heq' | ⟨hname, heq'⟩
      · rw [heq']
        exact Evaluator.denotes_folded rfl rfl hdenotes
      · rw [heq']
        subst hname
        refine Evaluator.denotes_folded rfl rfl (denotes_spliced ?_ hdenotes)
        exact fun hmem => not_isNormal_concat_nil hs (hnormal _ hmem).1

/-- **Meaning.** With all operators registered, whatever else is and with rules or without, an
expression without typed terms denotes under every substitution what its residual denotes. -/
theorem evaluate_denotes (s : Settings) (hs : s.builtins = true) (σ : Binding) {e : Expr}
    (he : e.TermFree) {v : Value} (hv : evaluateConstant (e.substitute σ) = .ok v) :
    s.evaluator.Returns ∅ e (s.evaluator.evaluate ∅ e) ∧
      evaluateConstant ((s.evaluator.evaluate ∅ e).substitute σ) = .ok v :=
  ⟨Evaluator.returns_evaluate s.hasStandardRules.nonGrowing ∅ e, denotes_evaluate hs he hv⟩

/-- A concatenation with an open one inside, which is spliced, and whose tag is the common one. -/
theorem evaluate_denotes_at :
    evaluateConstant (((({} : Settings).evaluator).evaluate ∅
      (apply .concat [const (.langString "a" "en"),
        apply .concat [var "x", const (.langString "b" "en")]])).substitute
          (Dictionary.ofList [("x", const (.langString "c" "en"))])) =
      .ok (.langString "acb" "en") := by
  refine (evaluate_denotes {} rfl _ ?_ ?_).2
  · refine .call _ _ fun a ha => ?_
    rcases List.mem_pair.mp ha with rfl | rfl
    · exact .const _
    · refine .call _ _ fun a ha => ?_
      rcases List.mem_pair.mp ha with rfl | rfl
      · exact .var _
      · exact .const _
  · rfl

end Settings

end Residual
