import Residual.Proofs.Meaning
import Residual.Proofs.Staging

/-!
# Evaluation and the value of a ground expression

The value of a ground expression is computed in one go, with the failures of names, of numbers of
arguments and of operators in their own order. Evaluation works node by node, stops at the type
error, and leaves what it cannot fold. Where the value is known, or a comparison fails, both agree.

* `conclusion?`: the constant to which an outcome leads.
* `operands_of_conclusion`: what a conclusion requires of the operands.
* `Settings.evaluate_of_conclusion`: evaluation comes to the same conclusion.
* `Evaluator.evaluateConstant_of_evaluate`: without rules, a constant is the value.
* `Settings.evaluate_late_of_termFree`: without typed terms, a binding may come late.
* `Settings.evaluate_agrees`: agreement in both directions.
-/

namespace Residual

open Residual.Expr Rule

/-! ## Conclusions -/

/-- The constant to which an outcome leads: a value to itself, and the failure of a comparison to
the type error. Other failures leave the expression as it is. -/
def conclusion? : Except FoldError Value → Option Value
  | .ok v => some v
  | .error err => if err.isNotComparable then some .typeError else none

theorem conclusion?_error_eq_some_iff {err : FoldError} {v : Value} :
    conclusion? (.error err) = some v ↔ err.isNotComparable = true ∧ v = .typeError := by
  rw [conclusion?]
  cases err.isNotComparable <;> simp [eq_comm]

theorem operator_of_conclusion {name : Option String} {args : List Expr} {v : Value}
    (h : conclusion? (evaluateConstant (call name args)) = some v) :
    ∃ op, Operator.ofCall name args.length = .ok op := by
  rw [evaluateConstant] at h
  cases hop : Operator.ofCall name args.length with
  | ok op => exact ⟨op, rfl⟩
  | error err =>
    rw [hop] at h
    have hcompare := (conclusion?_error_eq_some_iff.mp h).1
    rw [Operator.isNotComparable_of_ofCall hop] at hcompare
    cases hcompare

theorem conclusion?_of_stops {x : Except FoldError Value} {v : Value} (hx : Stops x)
    (h : conclusion? x = some v) : v = .typeError := by
  cases x with
  | error err => exact (conclusion?_error_eq_some_iff.mp h).2
  | ok w =>
    cases h
    exact hx v rfl

/-- An operator is applied to nothing but values, and not to the type error. -/
theorem args_of_conclusion {name : Option String} {args : List Expr} {v : Value}
    (h : conclusion? (evaluateConstant (call name args)) = some v) :
    (v = .typeError ∧ ∃ a ∈ args, conclusion? (evaluateConstant a) = some .typeError) ∨
      ∀ a ∈ args, ∃ w, w ≠ .typeError ∧ evaluateConstant a = .ok w := by
  rcases call_outcome name args with
    ⟨err, hop, -⟩ | ⟨a, ha, hstops, heq⟩ | ⟨op, vs, -, hvalues, hno, -⟩
  · obtain ⟨op, hop'⟩ := operator_of_conclusion h
    rw [hop] at hop'
    cases hop'
  · rw [← heq] at h
    obtain rfl := conclusion?_of_stops hstops h
    exact Or.inl ⟨rfl, a, ha, h⟩
  · refine Or.inr fun a ha => ?_
    obtain ⟨w, hw, hvalue⟩ := exists_of_forall₂ hvalues ha
    exact ⟨w, fun hne => hno (hne ▸ hw), hvalue⟩

/-- The two parts of a typed term are not looked at in any other way. -/
theorem parts_of_conclusion {l d : Expr} {v : Value}
    (h : conclusion? (evaluateConstant (term l d)) = some v) :
    (v = .typeError ∧ ∃ a ∈ [l, d], conclusion? (evaluateConstant a) = some .typeError) ∨
      ∀ a ∈ [l, d], ∃ w, w ≠ .typeError ∧ evaluateConstant a = .ok w := by
  rcases term_outcome l d with ⟨a, ha, hstops, heq⟩ | ⟨lexical, datatype, hl, hd, hno, hno', -⟩
  · rw [← heq] at h
    obtain rfl := conclusion?_of_stops hstops h
    exact Or.inl ⟨rfl, a, ha, h⟩
  · refine Or.inr fun a ha => ?_
    rcases List.mem_pair.mp ha with rfl | rfl
    · exact ⟨lexical, hno, hl⟩
    · exact ⟨datatype, hno', hd⟩

/-- A conclusion about a node comes from a type error among its operands, or else from their
values. -/
theorem operands_of_conclusion {e : Expr} {v : Value} (he : e.isNode = true)
    (h : conclusion? (evaluateConstant e) = some v) :
    (v = .typeError ∧ ∃ a ∈ e.operands, conclusion? (evaluateConstant a) = some .typeError) ∨
      ∀ a ∈ e.operands, ∃ w, w ≠ .typeError ∧ evaluateConstant a = .ok w := by
  cases e with
  | const v => cases he
  | var x => cases he
  | call name args => exact args_of_conclusion h
  | term l d => exact parts_of_conclusion h

/-! ## Nodes with the values of their operands -/

theorem evaluateConstants_map {f : Expr → Expr} {es : List Expr}
    (h : ∀ a ∈ es, evaluateConstant (f a) = evaluateConstant a) :
    evaluateConstants (es.map f) = evaluateConstants es := by
  induction es with
  | nil => rfl
  | cons e es ih =>
    rw [List.map_cons, evaluateConstants, evaluateConstants, h e List.mem_cons_self,
      ih fun a ha => h a (List.mem_cons_of_mem e ha)]

/-- The value of a node depends on its operands only through theirs. -/
theorem evaluateConstant_mapOperands {f : Expr → Expr} {e : Expr}
    (h : ∀ a ∈ e.operands, evaluateConstant (f a) = evaluateConstant a) :
    evaluateConstant (e.mapOperands f) = evaluateConstant e := by
  cases e with
  | const v => rfl
  | var x => rfl
  | call name args =>
    have hargs : evaluateConstants (args.map f) = evaluateConstants args := evaluateConstants_map h
    rw [mapOperands_call, evaluateConstant, evaluateConstant, List.length_map, hargs]
  | term l d =>
    rw [mapOperands_term, evaluateConstant, evaluateConstant, h l List.mem_cons_self,
      h d (by simp [operands])]

namespace Evaluator

variable {ev : Evaluator}

theorem folded_of_conclusion {e : Expr} {v : Value} (hfold : ev.isFoldable e = true)
    (h : conclusion? (ev.constants e) = some v) : ev.folded e = const v := by
  rw [folded, if_pos hfold]
  cases hvalue : ev.constants e with
  | ok w =>
    rw [hvalue] at h
    cases h
    rfl
  | error err =>
    rw [hvalue] at h
    obtain ⟨hcompare, rfl⟩ := conclusion?_error_eq_some_iff.mp h
    exact if_pos hcompare

/-- A node becomes a constant other than the type error only if this is its value. -/
theorem of_folded_eq_const {e : Expr} {v : Value} (he : e.isNode = true) (hv : v ≠ .typeError)
    (h : ev.folded e = const v) : ev.isFoldable e = true ∧ ev.constants e = .ok v := by
  rw [folded] at h
  split at h
  · rename_i hfold
    refine ⟨hfold, ?_⟩
    cases hvalue : ev.constants e with
    | ok w =>
      rw [hvalue] at h
      exact congrArg _ (const.inj h)
    | error err =>
      rw [hvalue, foldedTo] at h
      split at h
      · exact absurd (const.inj h).symm hv
      · rw [h] at he
        cases he
  · rw [h] at he
    cases he

/-- If the operands of a node are evaluated to constants only if these are their values, so is the
node, as long as it is folded with no more than its operands evaluated. -/
theorem evaluateConstant_of_folded (hev : ev.constants = evaluateConstant) {e : Expr} {v : Value}
    (he : e.isNode = true) (hv : v ≠ .typeError)
    (ih : ∀ a ∈ e.operands, ∀ w, w ≠ .typeError → ev.evaluate ∅ a = const w →
      evaluateConstant a = .ok w)
    (hno : ∀ a ∈ e.operands, ev.evaluate ∅ a ≠ typeError)
    (h : ev.folded (e.mapOperands (ev.evaluate ∅)) = const v) : evaluateConstant e = .ok v := by
  obtain ⟨hfold, hvalue⟩ := of_folded_eq_const (by rwa [isNode_mapOperands]) hv h
  rw [hev, evaluateConstant_mapOperands] at hvalue
  · exact hvalue
  · intro a ha
    obtain ⟨w, hw⟩ := forall_operands_mapOperands.mp (operands_of_isFoldable hfold) a ha
    have hne : w ≠ .typeError := by
      rintro rfl
      exact hno a ha hw
    rw [hw, ih a ha w hne hw, evaluateConstant]

/-- Without rules and whatever is registered, an expression is evaluated to a constant other than
the type error only if this is its value. -/
theorem evaluateConstant_of_evaluate (r : Registry) {e : Expr} {v : Value} (hv : v ≠ .typeError)
    (h : (withoutRules r evaluateConstant).evaluate ∅ e = const v) : evaluateConstant e = .ok v := by
  induction e using nodeInduction generalizing v with
  | const w =>
    rw [evaluate_const] at h
    cases h
    rw [evaluateConstant]
  | var x =>
    rw [evaluate_var_empty (nonGrowing_withoutRules r evaluateConstant)] at h
    cases h
  | node e he ih =>
    rw [evaluate_node_withoutRules r evaluateConstant ∅ he] at h
    rcases onOperands_cases ((withoutRules r evaluateConstant).evaluate ∅)
      (withoutRules r evaluateConstant).folded e with ⟨a, -, -, heq⟩ | ⟨hno, heq⟩
    · rw [heq] at h
      exact absurd (const.inj h).symm hv
    · rw [heq] at h
      exact evaluateConstant_of_folded rfl he hv (fun a ha w hw => ih a ha hw) hno h

end Evaluator

/-! ## All operators registered -/

namespace Settings

variable {s : Settings}

theorem admits_of_conclusion (hs : s.builtins = true) {e : Expr} {v : Value}
    (h : conclusion? (evaluateConstant e) = some v) :
    s.registry.admits e.identifier? = true := by
  cases e with
  | const v => rfl
  | var x => rfl
  | term l d => rfl
  | call name args =>
    obtain ⟨op, hop⟩ := operator_of_conclusion h
    rw [identifier?, Operator.identifierOf_of_ofCall hop]
    exact admits_operator hs op

/-- A node with constant operands is folded to its conclusion. -/
theorem folded_eq_conclusion (hs : s.builtins = true) {e : Expr} {v : Value}
    (he : e.isNode = true) (hconst : ∀ a ∈ e.operands, a.isConst = true)
    (h : conclusion? (evaluateConstant e) = some v) : s.evaluator.folded e = const v :=
  Evaluator.folded_of_conclusion
    (Evaluator.isFoldable_iff.mpr ⟨he, hconst, admits_of_conclusion hs h⟩) h

/-- Evaluation comes to the conclusion of a ground expression, with rules or without: they do not
rewrite nodes with constant operands. -/
theorem evaluate_of_conclusion (hs : s.builtins = true) {e : Expr} {v : Value}
    (h : conclusion? (evaluateConstant e) = some v) : s.evaluator.evaluate ∅ e = const v := by
  have hev := s.hasStandardRules
  induction e using nodeInduction generalizing v with
  | const w =>
    cases h
    rfl
  | var x => cases h
  | node e he ih =>
    rw [Evaluator.evaluate_node hev.nonGrowing ∅ he]
    rcases operands_of_conclusion he h with ⟨rfl, a, ha, htype⟩ | hvalues
    · exact Evaluator.onOperands_of_typeError ha (ih a ha htype)
    · -- the operands are replaced by their values, so that the node has the same outcome as before
      have hconst : ∀ a ∈ e.operands, ∃ w, w ≠ .typeError ∧ evaluateConstant a = .ok w ∧
          s.evaluator.evaluate ∅ a = const w := by
        intro a ha
        obtain ⟨w, hw, hvalue⟩ := hvalues a ha
        exact ⟨w, hw, hvalue, ih a ha (by rw [hvalue]; rfl)⟩
      have hoperands : ∀ a ∈ (e.mapOperands (s.evaluator.evaluate ∅)).operands,
          a.isConst = true := by
        refine forall_operands_mapOperands.mpr fun a ha => ?_
        obtain ⟨w, -, -, heq⟩ := hconst a ha
        rw [heq]
        rfl
      have hvalue : evaluateConstant (e.mapOperands (s.evaluator.evaluate ∅)) =
          evaluateConstant e := by
        refine evaluateConstant_mapOperands fun a ha => ?_
        obtain ⟨w, -, hvalue, heq⟩ := hconst a ha
        rw [heq, hvalue, evaluateConstant]
      rw [Evaluator.onOperands_of_noTypeError, Evaluator.settled, hev.rewritten?_of_const hoperands]
      · exact folded_eq_conclusion hs (by rwa [isNode_mapOperands]) hoperands (by rwa [hvalue])
      · intro a ha
        obtain ⟨w, hw, -, heq⟩ := hconst a ha
        rw [heq]
        exact const_ne_typeError hw

/-! ## Expressions without typed terms -/

theorem not_isNormal_of_conclusion (hs : s.builtins = true) {e : Expr} {v : Value}
    (he : e.isNode = true) (hconst : ∀ a ∈ e.operands, a.isConst = true)
    (h : conclusion? (evaluateConstant e) = some v) : ¬ s.evaluator.IsNormal e := by
  intro hnormal
  have hself := hnormal.folded_eq
  rw [folded_eq_conclusion hs he hconst h] at hself
  rw [← hself] at he
  cases he

/-- Among normal arguments of a concatenation that is folded after splicing there is no
concatenation: it would have been folded before. -/
theorem concat_notMem_of_folded (hs : s.builtins = true) {args : List Expr} {v : Value}
    (hv : v ≠ .typeError) (hnormal : ∀ a ∈ args, s.evaluator.IsNormal a)
    (h : s.evaluator.folded (apply .concat (spliced args)) = const v) (inner : List Expr) :
    apply .concat inner ∉ args := by
  intro hinner
  have hmem : ∀ a ∈ inner, a ∈ spliced args := fun a ha =>
    mem_spliced.mpr (Or.inr ⟨inner, hinner, ha⟩)
  obtain ⟨hfold, hvalue⟩ := Evaluator.of_folded_eq_const rfl hv h
  have hstrings := exists_concat_value_iff.mp ⟨v, hv, hvalue⟩
  obtain ⟨w, -, hw⟩ := exists_concat_value_iff.mpr fun a ha => hstrings a (hmem a ha)
  refine not_isNormal_of_conclusion hs rfl (fun a ha => ?_) (by rw [hw]; rfl) (hnormal _ hinner)
  exact (Evaluator.isFoldable_iff.mp hfold).2.1 a (hmem a ha)

/-- The rules make no constants of expressions without typed terms. -/
theorem evaluateConstant_of_termFree (hs : s.builtins = true) {e : Expr} (he : e.TermFree)
    {v : Value} (hv : v ≠ .typeError) (h : s.evaluator.evaluate ∅ e = const v) :
    evaluateConstant e = .ok v := by
  have hev := s.hasStandardRules
  induction he generalizing v with
  | const w =>
    rw [Evaluator.evaluate_const] at h
    cases h
    rw [evaluateConstant]
  | var x =>
    rw [Evaluator.evaluate_var_empty hev.nonGrowing] at h
    cases h
  | call name args hargs ih =>
    rw [Evaluator.evaluate_node hev.nonGrowing ∅ rfl] at h
    rcases Evaluator.onOperands_cases (s.evaluator.evaluate ∅)
      (s.evaluator.settled (s.evaluator.evaluate ∅)) (call name args) with
      ⟨a, -, -, heq⟩ | ⟨hno, heq⟩
    · rw [heq] at h
      exact absurd (const.inj h).symm hv
    · have hfree : ∀ a ∈ args.map (s.evaluator.evaluate ∅), a.TermFree :=
        List.forall_mem_map.mpr fun a ha => Evaluator.termFree_evaluate hev (hargs a ha)
      have hnormal : ∀ a ∈ args.map (s.evaluator.evaluate ∅),
          s.evaluator.IsNormal a ∧ a ≠ typeError := Evaluator.normal_args hev hno
      have hfolded : s.evaluator.folded (call name (args.map (s.evaluator.evaluate ∅))) =
          const v := by
        rw [heq, mapOperands_call] at h
        rcases Evaluator.settled_of_termFree hev hfree hnormal with heq' | ⟨hname, heq'⟩
        · rwa [heq'] at h
        · -- all that is spliced is constant, so that nothing was there to be spliced
          rw [heq'] at h
          subst hname
          rwa [spliced_eq_self (concat_notMem_of_folded hs hv (fun a ha => (hnormal a ha).1) h)]
            at h
      exact Evaluator.evaluateConstant_of_folded rfl rfl hv (fun a ha w hw => ih a ha hw) hno
        hfolded

theorem termFree_substitute {b : Binding} (hb : ∀ x e, b.find? x = some e → ∃ w, e = const w)
    {e : Expr} (he : e.TermFree) : (e.substitute b).TermFree := by
  induction he with
  | const v =>
    rw [substitute_const]
    exact .const v
  | var x =>
    rw [substitute_var]
    cases hx : b.find? x with
    | none => exact .var x
    | some e =>
      obtain ⟨w, rfl⟩ := hb x e hx
      exact .const w
  | call name args _ ih =>
    rw [substitute_node rfl, mapOperands_call]
    exact .call name _ (List.forall_mem_map.mpr ih)

/-- A constant that an expression without typed terms has with a binding of constants from the
beginning, it also has with this binding afterwards. -/
theorem evaluate_late_of_termFree (hs : s.builtins = true) {b : Binding}
    (hb : ∀ x e, b.find? x = some e → ∃ w, e = const w) {e : Expr} (he : e.TermFree) {v : Value}
    (hv : v ≠ .typeError) (h : s.evaluator.evaluate b e = const v) :
    s.evaluator.evaluate b (s.evaluator.evaluate ∅ e) = const v := by
  have hev := s.hasStandardRules
  rw [Evaluator.evaluate_substitute hev.nonGrowing] at h ⊢
  have hvalue := evaluateConstant_of_termFree hs (termFree_substitute hb he) hv h
  have hlate : evaluateConstant ((s.evaluator.evaluate ∅ e).substitute b) = .ok v :=
    denotes_evaluate hs he hvalue
  exact evaluate_of_conclusion hs (by rw [hlate]; rfl)

/-- **Agreement.** With all operators registered, whatever else is and with rules or without,
evaluation ends with the value of an expression that has one, and with the type error if a
comparison fails. Conversely, without rules and whatever is registered, a constant other than the
type error that evaluation ends with is the value of the expression. -/
theorem evaluate_agrees (s : Settings) (hs : s.builtins = true) (e : Expr) :
    (s.evaluator.Returns ∅ e (s.evaluator.evaluate ∅ e) ∧
      (∀ v, evaluateConstant e = .ok v → s.evaluator.evaluate ∅ e = const v) ∧
      ∀ l r, evaluateConstant e = .error (.notComparable l r) →
        s.evaluator.evaluate ∅ e = typeError) ∧
    ∀ r : Registry, (Evaluator.withoutRules r evaluateConstant).Returns ∅ e
        ((Evaluator.withoutRules r evaluateConstant).evaluate ∅ e) ∧
      ∀ v, v ≠ .typeError →
        (Evaluator.withoutRules r evaluateConstant).evaluate ∅ e = const v →
        evaluateConstant e = .ok v := by
  refine ⟨⟨?_, fun v hv => ?_, fun l r herr => ?_⟩, fun r => ⟨?_, fun v hv h => ?_⟩⟩
  · exact Evaluator.returns_evaluate s.hasStandardRules.nonGrowing ∅ e
  · exact evaluate_of_conclusion hs (by rw [hv]; rfl)
  · exact evaluate_of_conclusion hs (by rw [herr]; rfl)
  · exact Evaluator.returns_evaluate (Evaluator.nonGrowing_withoutRules r evaluateConstant) ∅ e
  · exact Evaluator.evaluateConstant_of_evaluate r hv h

/-- A comparison of strings, one of them computed, has a value; inside a conjunction, a comparison
of an integer with a string has none. -/
theorem evaluate_agrees_at :
    (({} : Settings).evaluator).evaluate ∅
        (apply .lt [apply .concat [const (.string "a"), const (.string "b")],
          const (.string "b")]) = const (.boolean true) ∧
      (({} : Settings).evaluator).evaluate ∅
        (apply .and [apply .eq [const (.integer 1), const (.string "one")],
          const (.boolean true)]) = typeError ∧
      evaluateConstant (apply .concat [const (.string "a"), const (.string "b")]) =
        .ok (.string "ab") :=
  ⟨(evaluate_agrees {} rfl _).1.2.1 _ rfl, (evaluate_agrees {} rfl _).1.2.2 _ _ rfl,
    ((evaluate_agrees {} rfl _).2 .builtins).2 _ (by decide) rfl⟩

end Settings

end Residual
