import Residual.Proofs.Constant
import Residual.Proofs.NormalForm

/-!
# Strings of evaluated expressions

The string of an expression depends on what the expression is evaluated to. That of a constant is
its text. That of a typed term is a typed term again, over the string of the inner text; so typed
terms inside one another lose their datatypes one after the other, down to a constant, of which the
text is known, or to an open expression.

* `Expr.strForm`, `Expr.strValue?`: the string of an evaluated expression, and its value.
* `Evaluator.evaluate_str`: evaluation gives this string.
* `Evaluator.evaluate_str_eq_const_iff`: when the string of an expression is known.
* `Evaluator.evaluate_str_term_eq_const_iff`: when that of a typed term is known.
-/

namespace Residual

open Residual.Expr Rule

namespace Expr

/-- The text of a constant, or of nested typed terms over a constant. -/
def text? : Expr → Option String
  | const v => some v.lexicalForm
  | term l _ => l.text?
  | _ => none

/-- The text of a typed term. It has the canonical spelling of the datatype if both are known. -/
def termText? (l d : Expr) : Option String :=
  match l.value?, d.value?.bind Value.datatypeName? with
  | some v, some name => some (Value.ofLexical v.lexicalForm name).lexicalForm
  | _, _ => l.text?

/-- The string of an evaluated expression, if it is known. -/
def strValue? (e : Expr) : Option Value :=
  if e = typeError then some .typeError else e.text?.map .string

/-- What becomes of the string of an evaluated expression other than the type error. -/
def strForm : Expr → Expr
  | const v => const (.string v.lexicalForm)
  | term l _ => if l.strForm.isConst then l.strForm else typedLiteral l.strForm Xsd.string
  | e => apply .str [e]

theorem strForm_eq_const_iff {e : Expr} {v : Value} :
    e.strForm = const v ↔ e.text?.map .string = some v := by
  induction e using Expr.induction with
  | const w => simp [strForm, text?]
  | var x => simp [strForm, text?, apply]
  | call name args _ => simp [strForm, text?, apply]
  | term l d ih _ =>
    rw [strForm, text?, ← ih]
    split
    · rfl
    · rename_i hconst
      constructor
      · intro h
        cases h
      · intro h
        rw [h] at hconst
        exact absurd rfl hconst

theorem strValue?_eq_typeError_iff {e : Expr} : e.strValue? = some .typeError ↔ e = typeError := by
  by_cases h : e = typeError
  · simp [strValue?, h]
  · simp [strValue?, h]

theorem strValue?_eq_string_iff {e : Expr} {s : String} :
    e.strValue? = some (.string s) ↔ e ≠ typeError ∧ e.text? = some s := by
  by_cases h : e = typeError
  · simp [strValue?, h]
  · simp [strValue?, h]

theorem strValue?_cases {e : Expr} {v : Value} (h : e.strValue? = some v) :
    v = .typeError ∨ ∃ s, v = .string s := by
  unfold strValue? at h
  split at h
  · exact Or.inl (Option.some.inj h).symm
  · obtain ⟨s, -, hs⟩ := Option.map_eq_some_iff.mp h
    exact Or.inr ⟨s, hs.symm⟩

theorem strForm_ne_typeError (e : Expr) : e.strForm ≠ typeError := by
  intro h
  have htext := strForm_eq_const_iff.mp h
  cases hs : e.text? <;> simp [hs] at htext

theorem strForm_eq_string {e : Expr} (h : e.strForm.isConst = true) :
    ∃ s, e.strForm = const (.string s) := by
  obtain ⟨v, hv⟩ := isConst_iff.mp h
  obtain ⟨s, -, rfl⟩ := Option.map_eq_some_iff.mp (strForm_eq_const_iff.mp hv)
  exact ⟨s, hv⟩

end Expr

namespace Evaluator

theorem hasStandardRules_standard : standard.HasStandardRules := Or.inr rfl

/-! ## Strings of evaluated expressions -/

theorem folded_str_const {v : Value} (hv : v ≠ .typeError) :
    standard.folded (apply .str [const v]) = const (.string v.lexicalForm) := by
  refine folded_of_ok (Registry.admits_builtins .str) ?_
  change evaluateConstant (call (some Operator.str.name) [const v]) = _
  refine evaluateConstant_call_eq_ok_iff.mpr ⟨.str, [v], ?_, .cons rfl .nil, ?_⟩
  · exact Operator.ofCall_name_of_arity rfl
  · rw [callValue_of_noTypeError (by simpa using hv.symm)]
    rfl

theorem rewritten?_str {e : Expr} (he : ∀ l d, e ≠ term l d) :
    standard.rewritten? (apply .str [e]) = none := by
  cases hrule : standard.rewritten? (apply .str [e]) with
  | none => rfl
  | some e' =>
    obtain ⟨l, d, heq⟩ := (hasStandardRules_standard.step hrule).term_inside
    exact absurd heq (he l d)

theorem folded_typedLiteral_string (s : String) :
    standard.folded (typedLiteral (const (.string s)) Xsd.string) = const (.string s) := by
  refine folded_of_ok rfl ?_
  change termValue (.string s) (.string Xsd.string) = .ok (.string s)
  exact congrArg _ (Value.ofLexical_string s)

/-- The string of an expression whose evaluation is finished. The term that the rule gives has the
string of the inner text for its text, which is found first. -/
theorem settled_str {n : Expr} (h : standard.IsNormal n) (hn : n ≠ typeError) :
    standard.settled (standard.evaluate ∅) (apply .str [n]) = n.strForm := by
  have hev := hasStandardRules_standard
  induction n using Expr.induction with
  | const v =>
    have hnone := rewritten?_str (e := const v) (by simp)
    rw [settled, hnone]
    exact folded_str_const fun hv => hn (congrArg const hv)
  | var x =>
    have hnone := rewritten?_str (e := var x) (by simp)
    rw [settled, hnone]
    exact folded_of_open _ (List.mem_singleton_self _) rfl
  | call name args _ =>
    have hnone := rewritten?_str (e := call name args) (by simp)
    rw [settled, hnone]
    exact folded_of_open _ (List.mem_singleton_self _) rfl
  | term l d ih _ =>
    obtain ⟨hl, hlerr⟩ := h.operands l List.mem_cons_self
    have hstr : standard.evaluate ∅ (apply .str [l]) = l.strForm := by
      rw [evaluate_node hev.nonGrowing ∅ rfl, onOperands_of_isNormal hev, ih hl hlerr]
      intro a ha
      rw [List.mem_singleton.mp ha]
      exact ⟨hl, hlerr⟩
    have hrule : standard.rewritten? (apply .str [term l d]) =
        some (typedLiteral (apply .str [l]) Xsd.string) := RuleTable.tryRewrite_standard.mpr (.str l d)
    have hmap : (typedLiteral (apply .str [l]) Xsd.string).mapOperands (standard.evaluate ∅) =
        typedLiteral l.strForm Xsd.string := by
      rw [typedLiteral, mapOperands_term, hstr]
      rfl
    rw [settled, hrule]
    dsimp only
    rw [onOperands_of_noTypeError, hmap, strForm]
    · by_cases hconst : l.strForm.isConst = true
      · obtain ⟨s, hs⟩ := strForm_eq_string hconst
        rw [if_pos hconst, hs]
        exact folded_typedLiteral_string s
      · rw [if_neg hconst]
        exact folded_of_open _ List.mem_cons_self (Bool.eq_false_iff.mpr hconst)
    · intro a ha
      rcases List.mem_pair.mp ha with rfl | rfl
      · rw [hstr]
        exact strForm_ne_typeError l
      · exact const_ne_typeError (by simp)

theorem evaluate_str {b : Binding} {e : Expr} (h : standard.evaluate b e ≠ typeError) :
    standard.evaluate b (apply .str [e]) = (standard.evaluate b e).strForm := by
  have hev := hasStandardRules_standard
  rw [evaluate_node hev.nonGrowing b rfl, onOperands_of_noTypeError]
  · exact settled_str (isNormal_evaluate hev b e) h
  · intro a ha
    rwa [List.mem_singleton.mp ha]

theorem evaluate_str_of_typeError {b : Binding} {e : Expr} (h : standard.evaluate b e = typeError) :
    standard.evaluate b (apply .str [e]) = typeError := by
  rw [evaluate_node hasStandardRules_standard.nonGrowing b rfl,
    onOperands_of_typeError (List.mem_singleton_self e) h]

/-- The string of an expression is known if it is the type error or has a known text. -/
theorem evaluate_str_eq_const_iff {b : Binding} {e : Expr} {v : Value} :
    standard.evaluate b (apply .str [e]) = const v ↔ (standard.evaluate b e).strValue? = some v := by
  by_cases h : standard.evaluate b e = typeError
  · rw [evaluate_str_of_typeError h, h, strValue?, if_pos rfl, typeError, const.injEq,
      Option.some.injEq]
  · rw [evaluate_str h, strForm_eq_const_iff, strValue?, if_neg h]

/-! ## Typed terms -/

theorem evaluate_term {b : Binding} {l d : Expr} (hl : standard.evaluate b l ≠ typeError)
    (hd : standard.evaluate b d ≠ typeError) : standard.evaluate b (term l d) =
      standard.folded (term (standard.evaluate b l) (standard.evaluate b d)) := by
  have hev := hasStandardRules_standard
  rw [evaluate_node hev.nonGrowing b rfl, onOperands_of_noTypeError, mapOperands_term, settled,
    hev.rewritten?_term]
  intro a ha
  rcases List.mem_pair.mp ha with rfl | rfl
  · exact hl
  · exact hd

theorem evaluate_term_of_typeError {b : Binding} {l d : Expr}
    (h : standard.evaluate b l = typeError ∨ standard.evaluate b d = typeError) :
    standard.evaluate b (term l d) = typeError := by
  rw [evaluate_node hasStandardRules_standard.nonGrowing b rfl]
  rcases h with h | h
  · exact onOperands_of_typeError List.mem_cons_self h
  · exact onOperands_of_typeError (by simp [operands]) h

/-- A typed term is folded exactly if its text is a constant and its datatype is named. -/
theorem folded_term_cases {l d : Expr} (hl : l ≠ typeError) (hd : d ≠ typeError) :
    (∃ v w name, l = const v ∧ d = const w ∧ w.datatypeName? = some name ∧
      standard.folded (term l d) = const (.ofLexical v.lexicalForm name)) ∨
    ((∀ v w, l = const v → d = const w → w.datatypeName? = none) ∧
      standard.folded (term l d) = term l d) := by
  cases hlconst : l.isConst with
  | false =>
    refine Or.inr ⟨fun v w hv => ?_, folded_of_open _ List.mem_cons_self hlconst⟩
    rw [hv] at hlconst
    cases hlconst
  | true =>
    cases hdconst : d.isConst with
    | false =>
      refine Or.inr ⟨fun v w _ hw => ?_, folded_of_open _ (by simp [operands]) hdconst⟩
      rw [hw] at hdconst
      cases hdconst
    | true =>
      obtain ⟨v, rfl⟩ := isConst_iff.mp hlconst
      obtain ⟨w, rfl⟩ := isConst_iff.mp hdconst
      have hv : v ≠ .typeError := fun h => hl (congrArg const h)
      have hw : w ≠ .typeError := fun h => hd (congrArg const h)
      cases hname : w.datatypeName? with
      | some name =>
        exact Or.inl ⟨v, w, name, rfl, rfl, hname,
          folded_of_ok rfl (termValue_of_datatypeName hv hname)⟩
      | none =>
        refine Or.inr ⟨fun v' w' _ hw' => ?_, ?_⟩
        · cases hw'
          exact hname
        · change foldedTo _ (termValue v w) = _
          rw [termValue_of_noDatatypeName hv hw hname]
          rfl

theorem termText?_eq_text? {l d : Expr}
    (h : ∀ v w, l = const v → d = const w → w.datatypeName? = none) : termText? l d = l.text? := by
  unfold termText?
  split
  · rename_i v name hv hname
    obtain ⟨w, hw, hname⟩ := Option.bind_eq_some_iff.mp hname
    rw [h v w (value?_eq_some hv) (value?_eq_some hw)] at hname
    cases hname
  · rfl

/-- A typed term that is not folded keeps its text. -/
theorem strValue?_folded_term {l d : Expr} (hl : l ≠ typeError) (hd : d ≠ typeError) :
    (standard.folded (term l d)).strValue? = (termText? l d).map .string := by
  rcases folded_term_cases hl hd with ⟨v, w, name, rfl, rfl, hname, hfold⟩ | ⟨hno, hfold⟩
  · rw [hfold, strValue?, if_neg, termText?, value?, value?, Option.bind_some, hname, text?]
    exact const_ne_typeError (Value.ofLexical_ne_typeError _ _)
  · rw [hfold, termText?_eq_text? hno]
    rfl

theorem evaluate_str_term_eq_const_iff {b : Binding} {l d : Expr} {v : Value} :
    standard.evaluate b (apply .str [term l d]) = const v ↔
      if standard.evaluate b l = typeError ∨ standard.evaluate b d = typeError then v = .typeError
      else (termText? (standard.evaluate b l) (standard.evaluate b d)).map .string = some v := by
  rw [evaluate_str_eq_const_iff]
  split
  · rename_i h
    rw [evaluate_term_of_typeError h, strValue?, if_pos rfl, Option.some.injEq]
    exact eq_comm
  · rename_i h
    obtain ⟨hl, hd⟩ := not_or.mp h
    rw [evaluate_term hl hd, strValue?_folded_term hl hd]

end Evaluator

end Residual
