import Residual.Proofs.StringForm
import Residual.Proofs.Agreement

/-!
# The datatype of a typed term

The datatype of a typed term is found in two ways. If text and datatype are known, the term is
folded to a literal, and the datatype of this is an IRI. From any other typed term the rule takes
the second part as it stands: only a string that is there already becomes an IRI, and the first part
is dropped with the type error that it may turn into. So a binding that comes after the rule may
leave a string where the same binding from the beginning gives the IRI.

* `Expr.slotForm`: the datatype that the second part of a typed term stands for.
* `Evaluator.evaluate_datatype_term`: in both ways it is the datatype of the evaluated term.
* `Evaluator.evaluate_datatype_term_late_iff`: when it is the same after rewriting.
* `Evaluator.slotAgreesLate_iff`: the second part must not become a string by the binding.
-/

namespace Residual

open Residual.Expr Rule

theorem Expr.slotForm_of_datatypeName {w : Value} {name : String}
    (h : w.datatypeName? = some name) : (const w).slotForm = const (.iri name) := by
  cases w with
  | iri n | string n =>
    cases h
    rfl
  | _ => cases h

theorem Expr.slotForm_ne_string (e : Expr) (s : String) : e.slotForm ≠ const (.string s) := by
  intro h
  unfold slotForm at h
  split at h
  · cases h
  · rename_i hno
    exact hno s h

theorem Expr.slotForm_slotForm (e : Expr) : e.slotForm.slotForm = e.slotForm :=
  slotForm_eq_self e.slotForm_ne_string

theorem Expr.slotForm_ne_typeError {e : Expr} (h : e ≠ typeError) : e.slotForm ≠ typeError := by
  unfold slotForm
  split
  · exact const_ne_typeError (by simp)
  · exact h

namespace Evaluator

/-! ## Datatypes of evaluated terms -/

theorem settled_datatype_const {v : Value} {name : String} (h : v.datatype? = some name) :
    standard.settled (standard.evaluate ∅) (apply .datatype [const v]) = const (.iri name) := by
  have hv : v ≠ .typeError := by
    rintro rfl
    cases h
  rw [settled, hasStandardRules_standard.rewritten?_of_const (by simp [apply, operands, isConst])]
  refine folded_of_ok (Registry.admits_builtins .datatype) ?_
  change evaluateConstant (call (some Operator.datatype.name) [const v]) = _
  refine evaluateConstant_call_eq_ok_iff.mpr ⟨.datatype, [v], ?_, .cons rfl .nil, ?_⟩
  · exact Operator.ofCall_name_of_arity rfl
  · rw [callValue_of_noTypeError (by simpa using hv.symm), Operator.apply, h]

theorem IsNormal.slotForm {ev : Evaluator} {e : Expr} (h : ev.IsNormal e) :
    ev.IsNormal e.slotForm := by
  unfold Expr.slotForm
  split
  · exact .const _
  · exact h

theorem settled_datatype_term {l d : Expr} (hd : standard.IsNormal d) :
    standard.settled (standard.evaluate ∅) (apply .datatype [term l d]) = d.slotForm := by
  have hrule : standard.rewritten? (apply .datatype [term l d]) = some d.slotForm :=
    RuleTable.tryRewrite_standard.mpr (.datatype_slotForm l d)
  rw [settled, hrule]
  dsimp only
  rw [onOperands_of_isNormal hasStandardRules_standard hd.slotForm.operands, hd.slotForm.folded_eq]

/-- The datatype is that of the evaluated term, whether this is folded or rewritten. -/
theorem evaluate_datatype_term {b : Binding} {l d : Expr} (hl : standard.evaluate b l ≠ typeError)
    (hd : standard.evaluate b d ≠ typeError) :
    standard.evaluate b (apply .datatype [term l d]) = (standard.evaluate b d).slotForm := by
  have hev := hasStandardRules_standard
  have hcases := folded_term_cases hl hd
  rw [← evaluate_term hl hd] at hcases
  rw [evaluate_node hev.nonGrowing b rfl, onOperands_of_noTypeError]
  · change standard.settled (standard.evaluate ∅)
      (apply .datatype [standard.evaluate b (term l d)]) = _
    -- a term that is folded gives its datatype as an IRI; any other is left to the rule
    rcases hcases with ⟨v, w, name, -, hw, hname, hfold⟩ | ⟨-, hfold⟩
    · rw [hfold, hw, slotForm_of_datatypeName hname,
        settled_datatype_const (Value.datatype?_ofLexical _ _)]
    · rw [hfold, settled_datatype_term (isNormal_evaluate hev b d)]
  · intro a ha
    rw [List.mem_singleton.mp ha]
    rcases hcases with ⟨v, w, name, -, -, -, hfold⟩ | ⟨-, hfold⟩
    · rw [hfold]
      exact const_ne_typeError (Value.ofLexical_ne_typeError _ _)
    · rw [hfold]
      simp [typeError]

theorem evaluate_datatype_term_of_typeError {b : Binding} {l d : Expr}
    (h : standard.evaluate b l = typeError ∨ standard.evaluate b d = typeError) :
    standard.evaluate b (apply .datatype [term l d]) = typeError := by
  rw [evaluate_node hasStandardRules_standard.nonGrowing b rfl,
    onOperands_of_typeError (List.mem_singleton_self _) (evaluate_term_of_typeError h)]

/-! ## Binding after rewriting -/

/-- Only a string that is known before the binding becomes an IRI. -/
theorem evaluate_slotForm_eq_slotForm_iff {b : Binding} {n e : Expr} :
    standard.evaluate b n.slotForm = e.slotForm ↔
      (standard.evaluate b n).slotForm = e.slotForm ∧
        ((∃ s, standard.evaluate b n = const (.string s)) → n.isConst = true) := by
  cases hconst : n.isConst with
  | true =>
    obtain ⟨v, rfl⟩ := isConst_iff.mp hconst
    have hsame : standard.evaluate b (const v).slotForm = (const v).slotForm := by
      unfold slotForm
      split <;> rfl
    rw [hsame, evaluate_const]
    simp
  | false =>
    have hself : n.slotForm = n := by
      refine slotForm_eq_self fun name hname => ?_
      rw [hname] at hconst
      cases hconst
    rw [hself]
    constructor
    · intro h
      rw [h, slotForm_slotForm]
      refine ⟨rfl, ?_⟩
      rintro ⟨s, hs⟩
      exact absurd hs (e.slotForm_ne_string s)
    · rintro ⟨h, hno⟩
      rw [← h, slotForm_eq_self]
      intro name hname
      have hfalse := hno ⟨name, hname⟩
      cases hfalse

theorem evaluate_slotForm_eq_typeError_iff {b : Binding} {e : Expr} :
    standard.evaluate b e.slotForm = typeError ↔ standard.evaluate b e = typeError := by
  unfold slotForm
  split
  · simp [typeError]
  · rfl

/-- The second part of a typed term stands for the same datatype if it is evaluated without the
binding first, and it does not become a string by the binding. Type errors have to be found in both
ways, those of the first part too. -/
def SlotAgreesLate (b : Binding) (l d : Expr) : Prop :=
  let late := standard.evaluate b (standard.evaluate ∅ d)
  if standard.evaluate b l = typeError ∨ standard.evaluate b d = typeError then
    standard.evaluate ∅ l = typeError ∨ late = typeError
  else
    standard.evaluate ∅ l ≠ typeError ∧ late.slotForm = (standard.evaluate b d).slotForm ∧
      ((∃ s, late = const (.string s)) → (standard.evaluate ∅ d).isConst = true)

theorem evaluate_late_datatype_term (b : Binding) (l d : Expr) :
    standard.evaluate b (standard.evaluate ∅ (apply .datatype [term l d])) =
      if standard.evaluate ∅ l = typeError then typeError
      else standard.evaluate b (standard.evaluate ∅ d).slotForm := by
  by_cases hl : standard.evaluate ∅ l = typeError
  · rw [if_pos hl, evaluate_datatype_term_of_typeError (Or.inl hl)]
    rfl
  · rw [if_neg hl]
    by_cases hd : standard.evaluate ∅ d = typeError
    · rw [evaluate_datatype_term_of_typeError (Or.inr hd), hd]
      rfl
    · rw [evaluate_datatype_term hl hd]

/-- **Binding late.** When the datatype of a typed term has a value with the binding from the
beginning, both stages of evaluation with the binding after rewriting end, and they give the same
value exactly if the second part of the term stands for it in both ways. -/
theorem evaluate_datatype_term_late_iff {b : Binding} {l d : Expr} {v : Value}
    (h : standard.evaluate b (apply .datatype [term l d]) = const v) :
    standard.Returns ∅ (apply .datatype [term l d])
        (standard.evaluate ∅ (apply .datatype [term l d])) ∧
      standard.Returns b (standard.evaluate ∅ (apply .datatype [term l d]))
        (standard.evaluate b (standard.evaluate ∅ (apply .datatype [term l d]))) ∧
      (standard.evaluate b (standard.evaluate ∅ (apply .datatype [term l d])) = const v ↔
        SlotAgreesLate b l d) := by
  have hreturns := returns_evaluate hasStandardRules_standard.nonGrowing
  refine ⟨hreturns _ _, hreturns _ _, ?_⟩
  rw [evaluate_late_datatype_term, SlotAgreesLate]
  by_cases htype : standard.evaluate b l = typeError ∨ standard.evaluate b d = typeError
  · -- the type error of the first part is lost by the rule, unless it shows without the binding
    rw [evaluate_datatype_term_of_typeError htype] at h
    rw [if_pos htype, ← h]
    split
    · rename_i hl
      simp [hl]
    · rename_i hl
      rw [evaluate_slotForm_eq_typeError_iff, or_iff_right hl]
  · obtain ⟨hl, hd⟩ := not_or.mp htype
    rw [evaluate_datatype_term hl hd] at h
    rw [if_neg htype, ← h]
    split
    · rename_i hno
      simp [hno, (slotForm_ne_typeError hd).symm]
    · rename_i hno
      rw [and_iff_right hno, evaluate_slotForm_eq_slotForm_iff]

/-- A string that is bound to the second part becomes an IRI early, but not late. -/
theorem evaluate_datatype_term_late_differs :
    ¬ ∀ (b : Binding) (l d : Expr) (v : Value),
      (∀ x e, b.find? x = some e → ∃ w, e = const w ∧ w ≠ .typeError) →
      standard.evaluate b (apply .datatype [term l d]) = const v →
      standard.evaluate b (standard.evaluate ∅ (apply .datatype [term l d])) = const v := by
  intro h
  let b : Binding := Dictionary.ofList [("y", const (.string Xsd.integer))]
  have hb : ∀ x e, b.find? x = some e → ∃ w, e = const w ∧ w ≠ .typeError := by
    intro x e hx
    change (Dictionary.insert ∅ "y" (const (.string Xsd.integer))).find? x = some e at hx
    rw [Dictionary.find?_insert] at hx
    split at hx
    · cases hx
      exact ⟨_, rfl, by simp⟩
    · cases hx
  have hearly : standard.evaluate b (apply .datatype [term (const (.string "7")) (var "y")]) =
      const (.iri Xsd.integer) := rfl
  have hlate : standard.evaluate b (standard.evaluate ∅
      (apply .datatype [term (const (.string "7")) (var "y")])) =
        const (.string Xsd.integer) := rfl
  have heq := h b _ _ _ hb hearly
  rw [hlate, const.injEq] at heq
  cases heq

/-- An IRI that is bound to the second part agrees, and a string does not. -/
theorem evaluate_datatype_term_late_at :
    let bound (v : Value) : Binding := Dictionary.ofList [("y", const v)]
    let l := const (.string "7")
    let e := apply .datatype [term l (var "y")]
    let datatype := const (.iri Xsd.integer)
    (standard.evaluate (bound (.iri Xsd.integer)) e = datatype ∧
        SlotAgreesLate (bound (.iri Xsd.integer)) l (var "y") ∧
        standard.evaluate (bound (.iri Xsd.integer)) (standard.evaluate ∅ e) = datatype) ∧
      standard.evaluate (bound (.string Xsd.integer)) e = datatype ∧
        ¬ SlotAgreesLate (bound (.string Xsd.integer)) l (var "y") ∧
        standard.evaluate (bound (.string Xsd.integer)) (standard.evaluate ∅ e) ≠ datatype := by
  intro bound l e datatype
  have hiri : standard.evaluate (bound (.iri Xsd.integer)) e = datatype := rfl
  have hstring : standard.evaluate (bound (.string Xsd.integer)) e = datatype := rfl
  have hagrees : SlotAgreesLate (bound (.iri Xsd.integer)) l (var "y") := by
    unfold SlotAgreesLate
    dsimp only
    rw [if_neg (by decide)]
    refine ⟨by decide, by decide, ?_⟩
    rintro ⟨s, hs⟩
    cases hs
  have hdiffers : ¬ SlotAgreesLate (bound (.string Xsd.integer)) l (var "y") := by
    unfold SlotAgreesLate
    dsimp only
    rw [if_neg (by decide)]
    rintro ⟨-, -, h⟩
    exact absurd (h ⟨Xsd.integer, rfl⟩) (by decide)
  exact ⟨⟨hiri, hagrees, (evaluate_datatype_term_late_iff hiri).2.2.mpr hagrees⟩, hstring, hdiffers,
    fun hlate => hdiffers ((evaluate_datatype_term_late_iff hstring).2.2.mp hlate)⟩

/-- Where the first part is no type error and the second part has the same value in both ways, this
must not be a string, unless it is known before the binding. -/
theorem slotAgreesLate_iff {b : Binding} {l d : Expr} {w : Value}
    (hopen : standard.evaluate ∅ l ≠ typeError) (hl : standard.evaluate b l ≠ typeError)
    (hd : standard.evaluate b d = const w) (hw : w ≠ .typeError)
    (hlate : standard.evaluate b (standard.evaluate ∅ d) = const w) :
    SlotAgreesLate b l d ↔ ((∃ s, w = .string s) → (standard.evaluate ∅ d).isConst = true) := by
  have hne : const w ≠ typeError := const_ne_typeError hw
  rw [SlotAgreesLate, hd, hlate, if_neg (not_or.mpr ⟨hl, hne⟩), and_iff_right hopen,
    and_iff_right rfl]
  simp only [const.injEq]

/-- For a second part without typed terms and a binding of constants, a string that comes with the
binding is all that can go wrong. -/
theorem slotAgreesLate_iff_of_termFree {b : Binding} {l d : Expr} {w : Value}
    (hb : ∀ x e, b.find? x = some e → ∃ v, e = const v)
    (hopen : standard.evaluate ∅ l ≠ typeError) (hl : standard.evaluate b l ≠ typeError)
    (hfree : d.TermFree) (hd : standard.evaluate b d = const w) (hw : w ≠ .typeError) :
    SlotAgreesLate b l d ↔ ((∃ s, w = .string s) → (standard.evaluate ∅ d).isConst = true) := by
  have hstandard : ({} : Settings).evaluator = standard := rfl
  refine slotAgreesLate_iff hopen hl hd hw ?_
  rw [← hstandard] at hd ⊢
  exact Settings.evaluate_late_of_termFree rfl hb hfree hw hd

end Evaluator

end Residual
