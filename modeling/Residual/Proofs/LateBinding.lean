import Residual.Proofs.StringForm

/-!
# Binding after rewriting

The string of a typed term is found in two ways. A typed term of which text and datatype are known
is folded, which gives its text the canonical spelling; from any other typed term the rule takes the
text as it stands and drops the datatype. A variable that is bound only after the rule has done this
may so give another string than one that is bound from the beginning, and the type error of a
datatype is forgotten.

* `Expr.core`: what remains of an expression without the typed terms around it.
* `Evaluator.evaluate_late_eq_const_iff`: when a string is known after rewriting.
* `Evaluator.evaluate_str_term_late_iff`: when it is the same as before.
* `Evaluator.agreesLate_var_iff`: a text that is bound to a variable has to be canonical.
-/

namespace Residual

open Residual.Expr

/-- An expression without the typed terms around it. -/
def Expr.core : Expr → Expr
  | term l _ => l.core
  | e => e

namespace Evaluator

/-- The rule wraps strings as typed terms of plain strings, which have the same value. -/
theorem evaluate_typedLiteral_string {b : Binding} {e : Expr} {v : Value}
    (h : ∀ w, standard.evaluate b e = const w → w = .typeError ∨ ∃ s, w = .string s) :
    standard.evaluate b (typedLiteral e Xsd.string) = const v ↔ standard.evaluate b e = const v := by
  by_cases htype : standard.evaluate b e = typeError
  · rw [typedLiteral, evaluate_term_of_typeError (Or.inl htype), htype]
  · have hterm : standard.evaluate b (typedLiteral e Xsd.string) =
        standard.folded (typedLiteral (standard.evaluate b e) Xsd.string) :=
      evaluate_term htype (const_ne_typeError (by simp))
    rw [hterm]
    cases hconst : (standard.evaluate b e).isConst with
    | false =>
      rw [folded_of_open _ List.mem_cons_self hconst]
      constructor
      · intro hv
        cases hv
      · intro hv
        rw [hv] at hconst
        cases hconst
    | true =>
      obtain ⟨w, hw⟩ := isConst_iff.mp hconst
      rcases h w hw with rfl | ⟨s, rfl⟩
      · exact absurd hw htype
      · rw [hw, folded_typedLiteral_string]

/-- What the rules leave of a string has the value of the string without the typed terms. -/
theorem evaluate_strForm_eq_const_iff {b : Binding} {n : Expr} {v : Value}
    (h : standard.IsNormal n) (hn : n ≠ typeError) :
    standard.evaluate b n.strForm = const v ↔
      standard.evaluate b (apply .str [n.core]) = const v := by
  induction n using Expr.induction generalizing v with
  | const w =>
    have hw : standard.evaluate b (const w) ≠ typeError := hn
    change _ ↔ standard.evaluate b (apply .str [const w]) = _
    rw [evaluate_str hw]
    rfl
  | var x => rfl
  | call name args _ => rfl
  | term l d ih _ =>
    obtain ⟨hl, hlerr⟩ := h.operands l List.mem_cons_self
    rw [core, ← ih hl hlerr, strForm]
    split
    · rfl
    · refine evaluate_typedLiteral_string fun w hw => ?_
      exact strValue?_cases (evaluate_str_eq_const_iff.mp ((ih hl hlerr).mp hw))

theorem evaluate_late_eq_const_iff {b : Binding} {e : Expr} {v : Value} :
    standard.evaluate b (standard.evaluate ∅ (apply .str [e])) = const v ↔
      (standard.evaluate b (standard.evaluate ∅ e).core).strValue? = some v := by
  rw [← evaluate_str_eq_const_iff]
  by_cases h : standard.evaluate ∅ e = typeError
  · have htype : standard.evaluate b typeError = typeError := rfl
    rw [evaluate_str_of_typeError h, h, htype]
    change _ ↔ standard.evaluate b (apply .str [typeError]) = _
    rw [evaluate_str_of_typeError htype]
  · rw [evaluate_str h]
    exact evaluate_strForm_eq_const_iff (isNormal_evaluate hasStandardRules_standard ∅ e) h

/-- The text of a typed term with the binding from the beginning is its text without the binding,
bound afterwards. Type errors have to be found in both ways. -/
def AgreesLate (b : Binding) (l d : Expr) : Prop :=
  let late := standard.evaluate b (standard.evaluate ∅ (term l d)).core
  if standard.evaluate b l = typeError ∨ standard.evaluate b d = typeError then late = typeError
  else late ≠ typeError ∧
    late.text? = termText? (standard.evaluate b l) (standard.evaluate b d)

/-- **Binding late.** When the string of a typed term has a value with the binding from the
beginning, both stages of evaluation with the binding after rewriting end, and they give the same
value exactly if the texts agree. -/
theorem evaluate_str_term_late_iff {b : Binding} {l d : Expr} {v : Value}
    (h : standard.evaluate b (apply .str [term l d]) = const v) :
    standard.Returns ∅ (apply .str [term l d]) (standard.evaluate ∅ (apply .str [term l d])) ∧
      standard.Returns b (standard.evaluate ∅ (apply .str [term l d]))
        (standard.evaluate b (standard.evaluate ∅ (apply .str [term l d]))) ∧
      (standard.evaluate b (standard.evaluate ∅ (apply .str [term l d])) = const v ↔
        AgreesLate b l d) := by
  have hreturns := returns_evaluate hasStandardRules_standard.nonGrowing
  refine ⟨hreturns _ _, hreturns _ _, ?_⟩
  rw [evaluate_str_term_eq_const_iff] at h
  rw [evaluate_late_eq_const_iff, AgreesLate]
  split
  · rename_i htype
    rw [if_pos htype] at h
    rw [h, strValue?_eq_typeError_iff]
  · rename_i htype
    rw [if_neg htype] at h
    obtain ⟨s, hs, rfl⟩ := Option.map_eq_some_iff.mp h
    rw [hs, strValue?_eq_string_iff]

/-- A text that is not in canonical spelling is brought into it early, but not late. -/
theorem evaluate_str_term_late_differs :
    ¬ ∀ (b : Binding) (l d : Expr) (v : Value),
      (∀ x e, b.find? x = some e → ∃ w, e = const w ∧ w ≠ .typeError) →
      standard.evaluate b (apply .str [term l d]) = const v →
      standard.evaluate b (standard.evaluate ∅ (apply .str [term l d])) = const v := by
  intro h
  let b : Binding := Dictionary.ofList [("x", const (.string "007"))]
  have hb : ∀ x e, b.find? x = some e → ∃ w, e = const w ∧ w ≠ .typeError := by
    intro x e hx
    change (Dictionary.insert ∅ "x" (const (.string "007"))).find? x = some e at hx
    rw [Dictionary.find?_insert] at hx
    split at hx
    · cases hx
      exact ⟨_, rfl, by simp⟩
    · cases hx
  have hearly : standard.evaluate b (apply .str [term (var "x") (const (.iri Xsd.integer))]) =
      const (.string "7") := rfl
  have hlate : standard.evaluate b (standard.evaluate ∅
      (apply .str [term (var "x") (const (.iri Xsd.integer))])) = const (.string "007") := rfl
  have heq := h b _ _ _ hb hearly
  rw [hlate, const.injEq, Value.string.injEq] at heq
  exact absurd heq (by decide)

/-- A text in canonical spelling agrees, and one with zeros before it does not. -/
theorem evaluate_str_term_late_at :
    let bound (s : String) : Binding := Dictionary.ofList [("x", const (.string s))]
    let d := const (.iri Xsd.integer)
    let e := apply .str [term (var "x") d]
    (standard.evaluate (bound "7") e = const (.string "7") ∧ AgreesLate (bound "7") (var "x") d ∧
        standard.evaluate (bound "7") (standard.evaluate ∅ e) = const (.string "7")) ∧
      standard.evaluate (bound "007") e = const (.string "7") ∧
        ¬ AgreesLate (bound "007") (var "x") d ∧
        standard.evaluate (bound "007") (standard.evaluate ∅ e) ≠ const (.string "7") := by
  intro bound d e
  have hagrees : AgreesLate (bound "7") (var "x") d := by
    unfold AgreesLate
    decide
  have hdiffers : ¬ AgreesLate (bound "007") (var "x") d := by
    unfold AgreesLate
    decide
  have hearly : standard.evaluate (bound "7") e = const (.string "7") := rfl
  have hearly' : standard.evaluate (bound "007") e = const (.string "7") := rfl
  exact ⟨⟨hearly, hagrees, (evaluate_str_term_late_iff hearly).2.2.mpr hagrees⟩, hearly', hdiffers,
    fun hlate => hdiffers ((evaluate_str_term_late_iff hearly').2.2.mp hlate)⟩

/-- Where the text itself is the same in both ways, the canonical spelling decides. -/
theorem agreesLate_iff_canonical {b : Binding} {l d : Expr} {v w : Value} {name : String}
    (hl : standard.evaluate b l = const v) (hv : v ≠ .typeError)
    (hd : standard.evaluate b d = const w) (hw : w.datatypeName? = some name)
    (hcore : standard.evaluate b (standard.evaluate ∅ (term l d)).core = const v) :
    AgreesLate b l d ↔ (Value.ofLexical v.lexicalForm name).lexicalForm = v.lexicalForm := by
  have hne : const v ≠ typeError := const_ne_typeError hv
  have hwerr : const w ≠ typeError := by
    refine const_ne_typeError fun h => ?_
    rw [h] at hw
    cases hw
  rw [AgreesLate, hl, hd, hcore, if_neg (not_or.mpr ⟨hne, hwerr⟩), termText?, value?, value?,
    Option.bind_some, hw, text?, and_iff_right hne, Option.some.injEq]
  exact eq_comm

/-- A text that is bound to a variable has to be in the canonical spelling of its datatype. -/
theorem agreesLate_var_iff {b : Binding} {x name : String} {v : Value}
    (hx : b.find? x = some (const v)) (hv : v ≠ .typeError) :
    AgreesLate b (var x) (const (.iri name)) ↔
      (Value.ofLexical v.lexicalForm name).lexicalForm = v.lexicalForm := by
  have hev := hasStandardRules_standard
  have hvar : standard.evaluate b (var x) = const v := by
    rw [evaluate_var hev.nonGrowing, hx]
    rfl
  have hopen : standard.evaluate ∅ (var x) = var x := evaluate_var_empty hev.nonGrowing x
  have hno : standard.evaluate ∅ (var x) ≠ typeError := by
    rw [hopen]
    simp [typeError]
  have hname : standard.evaluate ∅ (const (.iri name)) ≠ typeError := const_ne_typeError (by simp)
  have hterm : standard.evaluate ∅ (term (var x) (const (.iri name))) =
      term (var x) (const (.iri name)) := by
    rw [evaluate_term hno hname, hopen]
    exact folded_of_open _ List.mem_cons_self rfl
  refine agreesLate_iff_canonical hvar hv rfl rfl ?_
  rw [hterm]
  exact hvar

end Evaluator

end Residual
