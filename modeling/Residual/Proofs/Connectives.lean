import Residual.Proofs.Constant

/-!
# The order of operands of a connective

One truth value of an operand decides a connective: false decides a conjunction, and true a
disjunction. The right operand is looked at only if the left one does not decide. So a connective
that is decided on the left has a value even if the operand on the right has no truth value, and it
fails in the other order. In all other cases the operands may change places.

* `Operator.decider?`: the truth value that decides a connective.
* `Value.DecidesAlone`: one operand decides, and the other one has no truth value.
* `apply_connective`: a connective of two values.
* `callValue_connective_comm_iff`, `connective_comm_iff`: when two values may change places, and
  when two expressions may.
-/

namespace Residual

open Residual.Expr

/-! ## What decides a connective -/

/-- The truth value of an operand that decides a connective, whatever the other operand is. -/
def Operator.decider? : Operator → Option Bool
  | and => some false
  | or => some true
  | _ => none

theorem Operator.arity_of_decider? {op : Operator} {d : Bool} (h : op.decider? = some d) :
    op.arity = some 2 := by
  cases op with
  | and | or => rfl
  | _ => cases h

/-- The first value decides a connective, and the second one, which is not the type error, has no
truth value. -/
def Value.DecidesAlone (d : Bool) (v w : Value) : Prop :=
  v.truth? = some d ∧ w.truth? = none ∧ w ≠ .typeError

theorem Value.not_decidesAlone_of_typeError {d : Bool} {v w : Value} (h : .typeError ∈ [v, w]) :
    ¬ v.DecidesAlone d w := by
  rintro ⟨hv, -, hw⟩
  simp only [List.mem_cons, List.not_mem_nil, or_false] at h
  rcases h with rfl | rfl
  · cases hv
  · exact hw rfl

theorem Fold.truth_of_some {op : Operator} {v : Value} {b : Bool} (h : v.truth? = some b) :
    truth op v = .ok b := by
  rw [truth, h]

theorem Fold.truth_of_none {op : Operator} {v : Value} (h : v.truth? = none) :
    truth op v = .error (.invalidOperands op.name [v]) := by
  rw [truth, h]

/-! ## Connectives of two values -/

section

variable {op : Operator} {d : Bool} (hop : op.decider? = some d)

include hop

/-- The right operand is looked at only if the left one does not decide. -/
theorem apply_connective (l r : Value) :
    op.apply [l, r] = (Fold.truth op l).bind fun b =>
      if b = d then .ok (.boolean d) else (Fold.truth op r).map .boolean := by
  cases op with
  | and =>
    cases hop
    show Fold.conjunction l r = _
    unfold Fold.conjunction
    cases Fold.truth .and l with
    | error err => rfl
    | ok b =>
      cases b with
      | false => rfl
      | true => cases Fold.truth .and r <;> rfl
  | or =>
    cases hop
    show Fold.disjunction l r = _
    unfold Fold.disjunction
    cases Fold.truth .or l with
    | error err => rfl
    | ok b =>
      cases b with
      | false => cases Fold.truth .or r <;> rfl
      | true => rfl
  | _ => cases hop

theorem apply_connective_of_decided {l r : Value} (hl : l.truth? = some d) :
    op.apply [l, r] = .ok (.boolean d) := by
  rw [apply_connective hop, Fold.truth_of_some hl]
  exact if_pos rfl

theorem apply_connective_of_left_none {l r : Value} (hl : l.truth? = none) :
    op.apply [l, r] = .error (.invalidOperands op.name [l]) := by
  rw [apply_connective hop, Fold.truth_of_none hl]
  rfl

theorem apply_connective_of_right_none {l r : Value} {b : Bool} (hl : l.truth? = some b)
    (hb : b ≠ d) (hr : r.truth? = none) :
    op.apply [l, r] = .error (.invalidOperands op.name [r]) := by
  rw [apply_connective hop, Fold.truth_of_some hl, Fold.truth_of_none hr]
  exact if_neg hb

theorem apply_connective_of_some {l r : Value} {b c : Bool} (hl : l.truth? = some b)
    (hr : r.truth? = some c) :
    op.apply [l, r] = .ok (.boolean (if b = d then d else c)) := by
  rw [apply_connective hop, Fold.truth_of_some hl, Fold.truth_of_some hr]
  by_cases hb : b = d
  · rw [if_pos hb]
    exact if_pos hb
  · rw [if_neg hb]
    exact if_neg hb

theorem callValue_of_decidesAlone {v w : Value} (h : v.DecidesAlone d w) :
    callValue op [v, w] = .ok (.boolean d) ∧
      callValue op [w, v] = .error (.invalidOperands op.name [w]) := by
  have hno : .typeError ∉ [v, w] := fun hmem => Value.not_decidesAlone_of_typeError hmem h
  have hno' : .typeError ∉ [w, v] := by rwa [List.Perm.mem_iff (List.Perm.swap v w [])]
  obtain ⟨hv, hw, -⟩ := h
  rw [callValue_of_noTypeError hno, callValue_of_noTypeError hno']
  exact ⟨apply_connective_of_decided hop hv, apply_connective_of_left_none hop hw⟩

/-- Two values, of which neither decides alone, have the same value in either order, or none. -/
theorem apply_connective_comm {v w x : Value} (hv : v ≠ .typeError) (hw : w ≠ .typeError)
    (hvw : ¬ v.DecidesAlone d w) (hwv : ¬ w.DecidesAlone d v) :
    op.apply [v, w] = .ok x ↔ op.apply [w, v] = .ok x := by
  cases hb : v.truth? with
  | none =>
    cases hc : w.truth? with
    | none =>
      rw [apply_connective_of_left_none hop hb, apply_connective_of_left_none hop hc]
      exact iff_of_false nofun nofun
    | some c =>
      have hne : c ≠ d := by
        rintro rfl
        exact hwv ⟨hc, hb, hv⟩
      rw [apply_connective_of_left_none hop hb, apply_connective_of_right_none hop hc hne hb]
  | some b =>
    cases hc : w.truth? with
    | none =>
      have hne : b ≠ d := by
        rintro rfl
        exact hvw ⟨hb, hc, hw⟩
      rw [apply_connective_of_left_none hop hc, apply_connective_of_right_none hop hb hne hc]
    | some c =>
      rw [apply_connective_of_some hop hb hc, apply_connective_of_some hop hc hb]
      -- there are only two truth values: what does not decide is the other one
      have hsym : ∀ b c d : Bool, (if b = d then d else c) = if c = d then d else b := by decide
      rw [hsym b c d]

theorem callValue_connective_comm_iff {v w : Value} :
    (∀ x, callValue op [v, w] = .ok x ↔ callValue op [w, v] = .ok x) ↔
      ¬ v.DecidesAlone d w ∧ ¬ w.DecidesAlone d v := by
  have hswap : Value.typeError ∈ [w, v] ↔ .typeError ∈ [v, w] :=
    List.Perm.mem_iff (List.Perm.swap v w [])
  constructor
  · intro h
    refine ⟨fun halone => ?_, fun halone => ?_⟩
    · obtain ⟨hvalue, hfail⟩ := callValue_of_decidesAlone hop halone
      have hvalue' := (h _).mp hvalue
      rw [hfail] at hvalue'
      cases hvalue'
    · obtain ⟨hvalue, hfail⟩ := callValue_of_decidesAlone hop halone
      have hvalue' := (h _).mpr hvalue
      rw [hfail] at hvalue'
      cases hvalue'
  · rintro ⟨hvw, hwv⟩ x
    by_cases hmem : Value.typeError ∈ [v, w]
    · rw [callValue_of_typeError hmem, callValue_of_typeError (hswap.mpr hmem)]
    · rw [callValue_of_noTypeError hmem, callValue_of_noTypeError fun h => hmem (hswap.mp h)]
      simp only [List.mem_cons, List.not_mem_nil, or_false, not_or] at hmem
      exact apply_connective_comm hop (Ne.symm hmem.1) (Ne.symm hmem.2) hvw hwv

end

/-! ## Connectives of two expressions -/

/-- An operator with a fixed number of operands, called on as many expressions that have values. -/
theorem evaluateConstant_apply_of_values {op : Operator} {es : List Expr} {vs : List Value}
    (hop : op.arity = some es.length)
    (h : List.Forall₂ (fun e v => evaluateConstant e = .ok v) es vs) :
    evaluateConstant (apply op es) = callValue op vs := by
  rw [apply, evaluateConstant, Operator.ofCall_name_of_arity hop, evaluateConstants_eq_ok_iff.mpr h]
  rfl

/-- **Order of operands.** Two expressions that have values may change places under a connective if
and only if neither value decides alone. If the first one does, the connective has the value that it
decides on in this order, and fails for the other operand in the other order. -/
theorem connective_comm_iff {op : Operator} {d : Bool} (hop : op.decider? = some d) {a b : Expr}
    {v w : Value} (ha : evaluateConstant a = .ok v) (hb : evaluateConstant b = .ok w) :
    ((∀ x, evaluateConstant (apply op [a, b]) = .ok x ↔
          evaluateConstant (apply op [b, a]) = .ok x) ↔
        ¬ v.DecidesAlone d w ∧ ¬ w.DecidesAlone d v) ∧
      (v.DecidesAlone d w → evaluateConstant (apply op [a, b]) = .ok (.boolean d) ∧
        evaluateConstant (apply op [b, a]) = .error (.invalidOperands op.name [w])) := by
  have harity := Operator.arity_of_decider? hop
  have hab : evaluateConstant (apply op [a, b]) = callValue op [v, w] :=
    evaluateConstant_apply_of_values harity (.cons ha (.cons hb .nil))
  have hba : evaluateConstant (apply op [b, a]) = callValue op [w, v] :=
    evaluateConstant_apply_of_values harity (.cons hb (.cons ha .nil))
  rw [hab, hba]
  exact ⟨callValue_connective_comm_iff hop, callValue_of_decidesAlone hop⟩

/-- Under a conjunction, a text and a negation that is false may change places. Under a disjunction,
a negation that is true decides alone over an IRI. -/
theorem connective_comm_iff_at :
    let text := apply .concat [const (.string "a"), const (.string "b")]
    let no := apply .not [const (.string "a")]
    let yes := apply .not [const (.string "")]
    let iri := apply .datatype [const (.integer 7)]
    ((Operator.and.decider? = some false ∧ evaluateConstant text = .ok (.string "ab") ∧
        evaluateConstant no = .ok (.boolean false)) ∧
      ∀ x, evaluateConstant (apply .and [text, no]) = .ok x ↔
        evaluateConstant (apply .and [no, text]) = .ok x) ∧
    (Operator.or.decider? = some true ∧ evaluateConstant yes = .ok (.boolean true) ∧
        evaluateConstant iri = .ok (.iri Xsd.integer)) ∧
      evaluateConstant (apply .or [yes, iri]) = .ok (.boolean true) ∧
      evaluateConstant (apply .or [iri, yes]) =
        .error (.invalidOperands "||" [.iri Xsd.integer]) := by
  intro text no yes iri
  have htext : evaluateConstant text = .ok (.string "ab") := by decide +kernel
  have hno : evaluateConstant no = .ok (.boolean false) := by decide +kernel
  have hyes : evaluateConstant yes = .ok (.boolean true) := by decide +kernel
  have hiri : evaluateConstant iri = .ok (.iri Xsd.integer) := by decide +kernel
  have hneither : ¬ (Value.string "ab").DecidesAlone false (.boolean false) ∧
      ¬ (Value.boolean false).DecidesAlone false (.string "ab") := by
    refine ⟨fun h => ?_, fun h => ?_⟩
    · cases h.2.1
    · cases h.2.1
  have halone : (Value.boolean true).DecidesAlone true (.iri Xsd.integer) := ⟨rfl, rfl, nofun⟩
  exact ⟨⟨⟨rfl, htext, hno⟩, (connective_comm_iff rfl htext hno).1.mpr hneither⟩,
    ⟨rfl, hyes, hiri⟩, (connective_comm_iff rfl hyes hiri).2 halone⟩

/-- An IRI has no truth value, so that the order of operands matters when the other operand is
false. -/
theorem conjunction_not_comm :
    let no := const (.boolean false)
    let iri := const (.iri "urn:a")
    (evaluateConstant no = .ok (.boolean false) ∧ evaluateConstant iri = .ok (.iri "urn:a")) ∧
      ¬ (evaluateConstant (apply .and [iri, no]) = .ok (.boolean false) ↔
        evaluateConstant (apply .and [no, iri]) = .ok (.boolean false)) := by
  intro no iri
  refine ⟨⟨rfl, rfl⟩, fun h => ?_⟩
  have hvalue : evaluateConstant (apply .and [no, iri]) = .ok (.boolean false) := by decide +kernel
  have hfail : evaluateConstant (apply .and [iri, no]) =
      .error (.invalidOperands "&&" [.iri "urn:a"]) := by
    decide +kernel
  have hvalue' := h.mpr hvalue
  rw [hfail] at hvalue'
  cases hvalue'

end Residual
