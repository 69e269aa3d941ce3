import Residual.Proofs.Constant

/-!
# Coherence of the comparisons

Equality of values and their order are two functions of their own. They go together: values with an
order have an equality as well, which is that of the order, so that of `<`, `=` and `>` exactly one
holds, and `<=` and `>=` are what their names say. There is one exception. Two strings with language
tags have an order if the tags are equal up to the case of letters, but they are equal only if the
tags are. If the texts are the same, such strings are neither less nor greater nor equal.

* `Numeric.equal_of_compare?`, `Value.equal?_of_order?`: equality follows from the order.
* `Value.CaseVariants`: the exception.
* `outcome_ordering`, `outcome_equality`: what the operators do with order and equality.
* `comparisons_coherent_iff`: the comparisons are coherent but for the exception.
-/

namespace Residual

open Residual.Expr

/-! ## Numbers -/

/-- Whether two doubles are less, equal or greater is read off one comparison. -/
theorem float_lt_iff {a b : Float} : a < b ↔ a.toModel.compare b.toModel = some .lt := by
  have hlt : a < b ↔ (a.toModel.compare b.toModel == some .lt) = true := decide_eq_true_iff
  rw [hlt, beq_iff_eq]

theorem float_beq_iff {a b : Float} :
    (a == b) = true ↔ a.toModel.compare b.toModel = some .eq := by
  have hbeq : (a == b) = (a.toModel.compare b.toModel == some .eq) := rfl
  rw [hbeq, beq_iff_eq]

theorem beq_eq_false_of_float_lt {a b : Float} (h : a < b) : (a == b) = false := by
  refine Bool.eq_false_iff.mpr fun hbeq => ?_
  have hlt := float_lt_iff.mp h
  rw [float_beq_iff.mp hbeq] at hlt
  cases hlt

namespace Numeric

theorem beq_of_compareFloat? {a b : Float} {o : Ordering} (h : compareFloat? a b = some o) :
    (a == b) = o.isEq := by
  unfold compareFloat? at h
  split at h
  · rename_i hlt
    cases h
    exact beq_eq_false_of_float_lt hlt
  · split at h
    · rename_i hbeq
      cases h
      exact hbeq
    · rename_i hbeq
      split at h
      · cases h
        exact Bool.eq_false_iff.mpr hbeq
      · cases h

/-- Two numbers are equal if their order says so. -/
theorem equal_of_compare? {m n : Numeric} {o : Ordering} (h : m.compare? n = some o) :
    m.equal n = o.isEq := by
  cases m with
  | double a => cases n <;> exact beq_of_compareFloat? h
  | integer a =>
    cases n with
    | double b => exact beq_of_compareFloat? h
    | integer b =>
      cases h
      rw [Std.isEq_compare_eq_beq, equal, Bool.eq_iff_iff, beq_iff_eq, beq_iff_eq, Int64.toInt_inj]

end Numeric

/-! ## Values -/

namespace Value

/-- Two strings with the same text and with language tags that differ, but only in the case of
letters. -/
def CaseVariants (l r : Value) : Prop :=
  ∃ s t t', l = langString s t ∧ r = langString s t' ∧ t ≠ t' ∧
    Text.equalIgnoringAsciiCase t t' = true

theorem CaseVariants.order?_eq {l r : Value} (h : CaseVariants l r) :
    l.order? r = some .eq ∧ l.equal? r = some false := by
  obtain ⟨s, t, t', rfl, rfl, hne, hcase⟩ := h
  simp [order?, equal?, numeric?, hcase, hne, Std.compare_self]

/-- If values have an order, their equality is that of the order. -/
theorem equal?_of_order? {l r : Value} {o : Ordering} (hno : ¬ CaseVariants l r)
    (h : l.order? r = some o) : l.equal? r = some o.isEq := by
  unfold order? at h
  unfold equal?
  split at h
  · exact congrArg some (Numeric.equal_of_compare? h)
  · split at h
    · cases h
      exact congrArg some Std.isEq_compare_eq_beq.symm
    · cases h
      exact congrArg some Std.isEq_compare_eq_beq.symm
    · rename_i a s b t _
      split at h
      · rename_i hcase
        cases h
        refine congrArg some ?_
        rw [Std.isEq_compare_eq_beq]
        by_cases hab : a = b
        · -- the same text, and hence the same tag
          subst hab
          have htag : s = t := by
            by_contra hne
            exact hno ⟨a, s, t, rfl, rfl, hne, hcase⟩
          rw [htag, beq_self_eq_true, beq_self_eq_true, Bool.and_true]
        · rw [beq_eq_false_iff_ne.mpr hab, Bool.false_and]
      · cases h
    · cases h

end Value

/-! ## The operators -/

/-- The value of an operator on two values. -/
def outcome (op : Operator) (l r : Value) : Except FoldError Value :=
  evaluateConstant (apply op [const l, const r])

section

variable {l r : Value} (hl : l ≠ .typeError) (hr : r ≠ .typeError)

include hl hr

theorem outcome_eq_apply {op : Operator} (harity : op.arity = some 2) :
    outcome op l r = op.apply [l, r] := by
  have hno : Value.typeError ∉ [l, r] := by
    simpa using ⟨hl.symm, hr.symm⟩
  exact evaluateConstant_apply_const hno (Operator.ofCall_name_of_arity harity)

theorem outcome_ordering :
    outcome .lt l r = Fold.ordering (·.isLT) l r ∧ outcome .le l r = Fold.ordering (·.isLE) l r ∧
      outcome .gt l r = Fold.ordering (·.isGT) l r ∧ outcome .ge l r = Fold.ordering (·.isGE) l r :=
  ⟨outcome_eq_apply hl hr rfl, outcome_eq_apply hl hr rfl, outcome_eq_apply hl hr rfl,
    outcome_eq_apply hl hr rfl⟩

theorem outcome_equality : outcome .eq l r = Fold.equality id l r := outcome_eq_apply hl hr rfl

end

/-! ## Coherence -/

/-- The five comparisons of two values have these truth values. -/
structure Outcomes (l r : Value) (lt le gt ge eq : Bool) : Prop where
  lt : outcome .lt l r = .ok (.boolean lt)
  le : outcome .le l r = .ok (.boolean le)
  gt : outcome .gt l r = .ok (.boolean gt)
  ge : outcome .ge l r = .ok (.boolean ge)
  eq : outcome .eq l r = .ok (.boolean eq)

/-- Nothing but a failure to compare comes out of any comparison of order. -/
def Unordered (l r : Value) : Prop :=
  ∀ op ∈ [Operator.lt, .le, .gt, .ge], outcome op l r = .error (.notComparable l r)

/-- All comparisons have an outcome. Of `<`, `=` and `>` exactly one holds, and the others are
alternatives of two of them. -/
def Ordered (l r : Value) : Prop :=
  ∃ lt le gt ge eq, Outcomes l r lt le gt ge eq ∧ lt.toNat + eq.toNat + gt.toNat = 1 ∧
    (le = true ↔ lt = true ∨ eq = true) ∧ (ge = true ↔ gt = true ∨ eq = true)

/-- Values of which none of `<`, `=` and `>` holds are not coherent. -/
theorem Outcomes.not_coherent {l r : Value} {le ge : Bool}
    (h : Outcomes l r false le false ge false) : ¬ (Unordered l r ∨ Ordered l r) := by
  rintro (hunordered | ⟨lt, le', gt, ge', eq, hordered, hone, -, -⟩)
  · have hlt := h.lt.symm.trans (hunordered .lt (by simp))
    cases hlt
  · have hlt := h.lt.symm.trans hordered.lt
    have hgt := h.gt.symm.trans hordered.gt
    have heq := h.eq.symm.trans hordered.eq
    cases hlt
    cases hgt
    cases heq
    simp at hone

section

variable {l r : Value} (hl : l ≠ .typeError) (hr : r ≠ .typeError)

include hl hr

theorem unordered_of_order?_eq_none (h : l.order? r = none) : Unordered l r := by
  obtain ⟨hlt, hle, hgt, hge⟩ := outcome_ordering hl hr
  simp only [Fold.ordering, h] at hlt hle hgt hge
  simp [Unordered, hlt, hle, hgt, hge]

theorem outcomes_of_order? {o : Ordering} {eq : Bool} (h : l.order? r = some o)
    (heq : l.equal? r = some eq) : Outcomes l r o.isLT o.isLE o.isGT o.isGE eq := by
  obtain ⟨hlt, hle, hgt, hge⟩ := outcome_ordering hl hr
  have hequal := outcome_equality hl hr
  simp only [Fold.ordering, h] at hlt hle hgt hge
  simp only [Fold.equality, heq, id] at hequal
  exact ⟨hlt, hle, hgt, hge, hequal⟩

theorem ordered_of_order? {o : Ordering} (h : l.order? r = some o)
    (heq : l.equal? r = some o.isEq) : Ordered l r := by
  refine ⟨_, _, _, _, _, outcomes_of_order? hl hr h heq, ?_⟩
  cases o <;> decide

theorem outcomes_of_caseVariants (h : Value.CaseVariants l r) :
    Outcomes l r false true false true false :=
  outcomes_of_order? hl hr h.order?_eq.1 h.order?_eq.2

/-- **Coherence of the comparisons.** Two values, of which none is the type error, have no order by
any operator, or they have one by all of them that goes together with their equality, if and only if
they are not strings of the same text with language tags that differ in the case of letters only. Of
such strings `<=` and `>=` hold, but neither `<` nor `>` nor `=`. -/
theorem comparisons_coherent_iff :
    (Unordered l r ∨ Ordered l r ↔ ¬ Value.CaseVariants l r) ∧
      (Value.CaseVariants l r → Outcomes l r false true false true false) := by
  refine ⟨⟨fun hcoherent hvariants => ?_, fun hno => ?_⟩, outcomes_of_caseVariants hl hr⟩
  · exact (outcomes_of_caseVariants hl hr hvariants).not_coherent hcoherent
  · cases h : l.order? r with
    | none => exact Or.inl (unordered_of_order?_eq_none hl hr h)
    | some o => exact Or.inr (ordered_of_order? hl hr h (Value.equal?_of_order? hno h))

end

/-- An integer and a padded literal of another integral datatype; a string with a tag and a longer
one whose tag is written in capitals. -/
theorem comparisons_coherent_iff_at :
    let m : Value := .integer 7
    let n : Value := .typed " 08 " Xsd.int
    let a : Value := .langString "a" "en"
    let b : Value := .langString "ab" "EN"
    (Unordered m n ∨ Ordered m n) ∧ (Unordered a b ∨ Ordered a b) := by
  intro m n a b
  refine ⟨(comparisons_coherent_iff (by decide) (by decide)).1.mpr ?_,
    (comparisons_coherent_iff (by decide) (by decide)).1.mpr ?_⟩
  · rintro ⟨s, t, t', hl, -⟩
    exact absurd hl (by simp [m])
  · rintro ⟨s, t, t', hl, hr, -⟩
    have htexts := (Value.langString.inj hl).1.trans (Value.langString.inj hr).1.symm
    exact absurd htexts (by decide)

/-- The comparisons are not coherent on all values: a string is neither less nor greater than the
same text with the tag in capitals, nor equal to it, although it is less or equal. -/
theorem comparisons_incoherent :
    let a : Value := .langString "a" "en"
    let b : Value := .langString "a" "EN"
    ¬ (Unordered a b ∨ Ordered a b) ∧ Outcomes a b false true false true false := by
  intro a b
  have hvariants : Value.CaseVariants a b := ⟨"a", "en", "EN", rfl, rfl, by decide, by decide⟩
  have houtcomes := outcomes_of_caseVariants (by decide) (by decide) hvariants
  exact ⟨houtcomes.not_coherent, houtcomes⟩

end Residual
