import Residual.Proofs.Causes

/-!
# Canonical constants

A literal may keep a text of its datatype only if this text is no value; then it is canonical.
Evaluation reads no constant again, but it need not do so. Operators never give a literal that keeps
its text, a typed term gives the literal that is read from its text, and of constants the rules build
a string and IRIs only. So if all constants of an expression are canonical, and all of a binding, then
whatever is computed from them is.

* `Value.isCanonical_typed_iff`: the literals that may keep their text.
* `isCanonical_or_occursIn`: the value of an expression is canonical, or a constant of it.
* `Evaluator.inherited_isUncanonical`: evaluation brings in no other constants.
* `Evaluator.canonical_of_canonical`: canonical constants stay canonical.
-/

namespace Residual

open Residual.Expr

theorem Value.isCanonical_typed_iff {s name : String} :
    (typed s name).IsCanonical ↔ native? s name = none := by
  constructor
  · intro h
    have hreads := reads_ofLexical s name
    rw [h s name rfl] at hreads
    cases hreads
    assumption
  · rintro h s' name' heq
    cases heq
    rw [ofLexical, h, Option.getD_none]

theorem Value.isCanonical_typeError : typeError.IsCanonical := by
  intro s name h
  cases h

/-! ## Values of expressions -/

/-- What is computed is canonical; other values are there from the beginning. -/
theorem isCanonical_or_occursIn {e : Expr} {v : Value} (h : evaluateConstant e = .ok v) :
    v.IsCanonical ∨ (const v).OccursIn e := by
  induction e using nodeInduction with
  | const w =>
    rw [evaluateConstant] at h
    cases h
    exact Or.inr .here
  | var x =>
    rw [evaluateConstant] at h
    cases h
  | node e he ih =>
    rcases node_cases he with ⟨a, ha, heq⟩ | hsettles | ⟨l, r, -, herr⟩
    · exact (ih a ha (heq.trans h)).imp_right (.inside ha)
    · exact Or.inl (hsettles.1 v h).2
    · rw [herr] at h
      cases h

/-! ## Constants of expressions -/

namespace Expr

/-- All constants of the expression are canonical. -/
def HasCanonicalConstants (e : Expr) : Prop := ∀ v, (const v).OccursIn e → v.IsCanonical

/-- A constant that is not canonical. -/
def IsUncanonical (e : Expr) : Prop := ∃ v, e = const v ∧ ¬ v.IsCanonical

theorem hasCanonicalConstants_iff {e : Expr} : e.HasCanonicalConstants ↔ ¬ e.Has IsUncanonical := by
  constructor
  · rintro h ⟨_, hocc, v, rfl, hv⟩
    exact hv (h v hocc)
  · intro h v hocc
    by_contra hv
    exact h ⟨const v, hocc, v, rfl, hv⟩

@[simp] theorem isUncanonical_const {v : Value} :
    (const v).IsUncanonical ↔ ¬ v.IsCanonical := by
  simp [IsUncanonical]

end Expr

namespace Evaluator

theorem inherited_isUncanonical {ev : Evaluator} (hev : ev.constants = evaluateConstant) :
    ev.Inherited IsUncanonical where
  call := by simp [IsUncanonical]
  term _ _ := by simp [IsUncanonical]
  string h := isUncanonical_const.mp h (Value.IsNative.isCanonical trivial)
  iri _ h := isUncanonical_const.mp h (Value.IsNative.isCanonical trivial)
  folded := by
    intro e h
    unfold folded at h
    split at h
    · rw [hev] at h
      cases hvalue : evaluateConstant e with
      | ok v =>
        rw [hvalue, foldedTo, has_const, isUncanonical_const] at h
        have hocc := (isCanonical_or_occursIn hvalue).resolve_left h
        exact ⟨const v, hocc, v, rfl, h⟩
      | error err =>
        rw [hvalue, foldedTo] at h
        split at h
        · rw [typeError, has_const, isUncanonical_const] at h
          exact absurd Value.isCanonical_typeError h
        · exact h
    · exact h

/-- **Canonical constants.** If all constants of an expression are canonical, its value is, if it has
one. If also those of the expressions bound to its variables are, then under the standard rules or
none, whatever the registry, so are all constants of what the expression is evaluated to. -/
theorem canonical_of_canonical {e : Expr} (he : e.HasCanonicalConstants) :
    (∀ v, evaluateConstant e = .ok v → v.IsCanonical) ∧
      ∀ (ev : Evaluator) (b : Binding), ev.HasStandardRules → ev.constants = evaluateConstant →
        (∀ x a, (var x).OccursIn e → b.find? x = some a → a.HasCanonicalConstants) →
          ev.Returns b e (ev.evaluate b e) ∧ (ev.evaluate b e).HasCanonicalConstants := by
  refine ⟨fun v hv => ?_, fun ev b hrules hev hb => ?_⟩
  · exact (isCanonical_or_occursIn hv).elim id (he v)
  · refine ⟨returns_evaluate hrules.nonGrowing b e, hasCanonicalConstants_iff.mpr fun h => ?_⟩
    rcases (inherited_isUncanonical hev).of_evaluate hrules h with h | ⟨x, a, hx, ha, h⟩
    · exact hasCanonicalConstants_iff.mp he h
    · exact hasCanonicalConstants_iff.mp (hb x a hx ha) h

/-- A text with a leading zero is bound to a variable, and an ill-formed one is there from the
beginning: the one is read, and the other is kept. -/
theorem canonical_of_canonical_at :
    let e := call (some "f")
      [term (var "x") (const (.iri Xsd.integer)), const (.typed "7.0" Xsd.integer)]
    let bound := apply .concat [const (.string "0"), const (.string "7")]
    let b : Binding := Dictionary.ofList [("x", bound)]
    e.HasCanonicalConstants ∧ bound.HasCanonicalConstants ∧
      (∀ v, evaluateConstant bound = .ok v → v.IsCanonical) ∧
      standard.evaluate b e =
        call (some "f") [const (.integer 7), const (.typed "7.0" Xsd.integer)] ∧
      (standard.evaluate b e).HasCanonicalConstants := by
  intro e bound b
  have he : e.HasCanonicalConstants := by
    intro v hv
    rcases (by simpa [e] using hv : v = .iri Xsd.integer ∨ v = .typed "7.0" Xsd.integer) with
      rfl | rfl
    · exact Value.IsNative.isCanonical trivial
    · exact Value.isCanonical_typed_iff.mpr rfl
  have hbound : bound.HasCanonicalConstants := by
    intro v hv
    rcases (by simpa [bound, apply] using hv : v = .string "0" ∨ v = .string "7") with rfl | rfl
    · exact Value.IsNative.isCanonical trivial
    · exact Value.IsNative.isCanonical trivial
  have hb : ∀ x a, (var x).OccursIn e → b.find? x = some a → a.HasCanonicalConstants := by
    intro x a hx ha
    have hname : x = "x" := by simpa [e] using hx
    rw [hname] at ha
    cases ha
    exact hbound
  exact ⟨he, hbound, (canonical_of_canonical hbound).1, rfl,
    ((canonical_of_canonical he).2 standard b (Or.inr rfl) rfl hb).2⟩

end Evaluator

end Residual
