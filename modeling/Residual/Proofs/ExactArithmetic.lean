import Residual.Proofs.Numeral
import Residual.Proofs.Agreement

/-!
# Exact arithmetic

Sums, differences and products of integers have an exact value, whatever its size. The value that is
computed is this one, as long as no intermediate result leaves the range of 64-bit words; if one
does, there is no value, but nothing wraps around either. Evaluation then folds the parts that stay
in range and leaves the rest, so that the exact value is that of the residual.

* `Expr.ExactValue`: expressions of integers, with their exact values.
* `Expr.Fits`: every intermediate result is in range.
* `Expr.ExactValue.value_cases`: computation is exact, or fails.
* `Evaluator.exactValue_evaluate`: evaluation keeps the exact value.
* `Evaluator.arithmetic_exact`: exact or left alone.
-/

namespace Residual

open Residual.Expr Residual.Decimal

/-! ## Exact values -/

/-- What an operator calculates exactly on integers. -/
def Operator.exact? : Operator → Option (Int → Int → Int)
  | add => some (· + ·)
  | sub => some (· - ·)
  | mul => some (· * ·)
  | _ => none

namespace Expr

/-- The exact value of an expression of integers, sums, differences and products. -/
inductive ExactValue : Expr → Int → Prop
  | integer (n : Int64) : ExactValue (const (.integer n)) n.toInt
  | operation {op : Operator} {f : Int → Int → Int} {l r : Expr} {m n : Int}
    (hop : op.exact? = some f) (hl : ExactValue l m) (hr : ExactValue r n) :
    ExactValue (apply op [l, r]) (f m n)

theorem ExactValue.unique {e : Expr} {m n : Int} (hm : e.ExactValue m) (hn : e.ExactValue n) :
    m = n := by
  induction hm generalizing n with
  | integer k =>
    cases hn
    rfl
  | @operation op f l r m m' hop _ _ ihl ihr =>
    generalize he : apply op [l, r] = e at hn
    cases hn with
    | integer k => cases he
    | @operation op' f' l' r' k k' hop' hl' hr' =>
      obtain ⟨hname, hargs⟩ := call.inj he
      obtain rfl := Operator.name_injective (Option.some.inj hname)
      obtain ⟨rfl, rfl⟩ : l = l' ∧ r = r' := by simpa using hargs
      rw [hop] at hop'
      rw [Option.some.inj hop', ihl hl', ihr hr']

end Expr

/-! ## The range of integers -/

/-- The integers that 64-bit words hold. -/
def InRange (n : Int) : Prop := Int64.minValue.toInt ≤ n ∧ n ≤ Int64.maxValue.toInt

/-- The exact values of all parts of an expression are in range. -/
def Expr.Fits (e : Expr) : Prop := ∀ (a : Expr) (n : Int), a.OccursIn e → a.ExactValue n → InRange n

theorem inRange_toInt (n : Int64) : InRange n.toInt := ⟨n.minValue_le_toInt, n.toInt_le⟩

theorem inInt64?_of_inRange {n : Int} (h : InRange n) : inInt64? n = some (Int64.ofInt n) :=
  if_pos h

theorem toInt_ofInt_of_inRange {n : Int} (h : InRange n) : (Int64.ofInt n).toInt = n :=
  inInt64?_eq_some_iff.mp (inInt64?_of_inRange h)

theorem inInt64?_of_not_inRange {n : Int} (h : ¬ InRange n) : inInt64? n = none := if_neg h

theorem fits_integer (n : Int64) : (const (.integer n)).Fits := by
  intro a m ha hm
  rw [occursIn_const.mp ha] at hm
  rw [hm.unique (.integer n)]
  exact inRange_toInt n

theorem fits_operation {op : Operator} {f : Int → Int → Int} {l r : Expr} {m n : Int}
    (hop : op.exact? = some f) (hl : l.ExactValue m) (hr : r.ExactValue n) :
    (apply op [l, r]).Fits ↔ l.Fits ∧ r.Fits ∧ InRange (f m n) := by
  constructor
  · intro h
    refine ⟨fun a k ha => h a k (.inside List.mem_cons_self ha),
      fun a k ha => h a k (.inside (by simp [apply, operands]) ha), ?_⟩
    exact h _ _ .here (.operation hop hl hr)
  · rintro ⟨hfl, hfr, hself⟩ a k ha hk
    rcases occursIn_call.mp ha with rfl | ⟨c, hc, hac⟩
    · rwa [hk.unique (.operation hop hl hr)]
    · rcases List.mem_pair.mp hc with rfl | rfl
      · exact hfl a k hac hk
      · exact hfr a k hac hk

/-! ## Values -/

theorem Operator.apply_of_exact? {op : Operator} {f : Int → Int → Int} (hop : op.exact? = some f)
    (m n : Int64) : op.apply [.integer m, .integer n] =
      match inInt64? (f m.toInt n.toInt) with
      | some k => .ok (.integer k)
      | none => .error (.integerOverflow op (.integer m) (.integer n)) := by
  cases op <;> cases hop <;> rfl

/-- An operation on integers computes its operands one after the other, and then calculates. -/
theorem evaluateConstant_operation {op : Operator} {f : Int → Int → Int}
    (hop : op.exact? = some f) (l r : Expr) : evaluateConstant (apply op [l, r]) = (do
      let v ← evaluateConstant l
      let w ← evaluateConstant r
      callValue op [v, w]) := by
  have harity : op.arity = some 2 := by cases op <;> cases hop <;> rfl
  have hcall : Operator.ofCall (some op.name) [l, r].length = .ok op :=
    Operator.ofCall_name_of_arity harity
  rw [Expr.apply, evaluateConstant, hcall]
  simp only [evaluateConstants]
  cases evaluateConstant l <;> cases evaluateConstant r <;> rfl

/-- A computation that goes beyond the range somewhere. -/
def Overflows (x : Except FoldError Value) : Prop :=
  ∃ op m n, x = .error (.integerOverflow op (.integer m) (.integer n))

/-- The value of an expression of integers is exact, unless an intermediate result is out of
range. -/
theorem Expr.ExactValue.value_cases {e : Expr} {z : Int} (h : e.ExactValue z) :
    (e.Fits ∧ ∃ n : Int64, n.toInt = z ∧ evaluateConstant e = .ok (.integer n)) ∨
      (¬ e.Fits ∧ Overflows (evaluateConstant e)) := by
  induction h with
  | integer n => exact Or.inl ⟨fits_integer n, n, rfl, by rw [evaluateConstant]⟩
  | @operation op f l r m n hop hl hr ihl ihr =>
    rw [fits_operation hop hl hr]
    rcases ihl with ⟨hfl, i, rfl, hvl⟩ | ⟨hfl, op', i, j, hvl⟩
    · rcases ihr with ⟨hfr, j, rfl, hvr⟩ | ⟨hfr, op', i', j', hvr⟩
      · have hvalue : evaluateConstant (apply op [l, r]) =
            op.apply [.integer i, .integer j] := by
          have hno : Value.typeError ∉ [Value.integer i, .integer j] := by simp
          rw [evaluateConstant_operation hop, hvl, hvr]
          exact callValue_of_noTypeError hno
        rw [hvalue, Operator.apply_of_exact? hop]
        by_cases hrange : InRange (f i.toInt j.toInt)
        · rw [inInt64?_of_inRange hrange]
          exact Or.inl ⟨⟨hfl, hfr, hrange⟩, _, toInt_ofInt_of_inRange hrange, rfl⟩
        · rw [inInt64?_of_not_inRange hrange]
          exact Or.inr ⟨fun h => hrange h.2.2, op, i, j, rfl⟩
      · rw [evaluateConstant_operation hop, hvl, hvr]
        exact Or.inr ⟨fun h => hfr h.2.1, op', i', j', rfl⟩
    · rw [evaluateConstant_operation hop, hvl]
      exact Or.inr ⟨fun h => hfl h.1, op', i, j, rfl⟩

/-! ## Evaluation -/

theorem Expr.ExactValue.termFree {e : Expr} {z : Int} (h : e.ExactValue z) : e.TermFree := by
  induction h with
  | integer n => exact .const _
  | operation _ _ _ ihl ihr =>
    refine .call _ _ fun a ha => ?_
    rcases List.mem_pair.mp ha with rfl | rfl
    · exact ihl
    · exact ihr

theorem Expr.ExactValue.exists_integer {v : Value} {z : Int} (h : (const v).ExactValue z) :
    ∃ n : Int64, n.toInt = z ∧ v = .integer n := by
  generalize he : const v = e at h
  cases h with
  | integer n => exact ⟨n, rfl, const.inj he⟩
  | operation _ _ _ => cases he

/-- Nothing in an expression of integers is rewritten by a standard rule. -/
theorem StandardStep.not_exactValue {e e' : Expr} (h : StandardStep e e') (z : Int) :
    ¬ e.ExactValue z := by
  intro hz
  cases hz with
  | integer n => cases h
  | @operation op f l r m n hop hl hr =>
    obtain ⟨args, hargs, -⟩ := h.spliced_of_termFree (ExactValue.operation hop hl hr).termFree
    obtain rfl := Operator.name_injective (Option.some.inj (call.inj hargs).1)
    cases hop

namespace Evaluator

variable {ev : Evaluator}

theorem exactValue_folded (hev : ev.constants = evaluateConstant) {e : Expr} {z : Int}
    (h : e.ExactValue z) : (ev.folded e).ExactValue z := by
  unfold folded
  split
  · rw [hev]
    rcases h.value_cases with ⟨-, n, rfl, hvalue⟩ | ⟨-, op, i, j, hvalue⟩
    · rw [hvalue]
      exact .integer n
    · rw [hvalue]
      exact h
  · exact h

/-- Evaluation keeps the exact value, whatever is registered. -/
theorem exactValue_evaluate (hrules : ev.HasStandardRules) (hev : ev.constants = evaluateConstant)
    {e : Expr} {z : Int} (h : e.ExactValue z) : (ev.evaluate ∅ e).ExactValue z := by
  induction h with
  | integer n => exact .integer n
  | @operation op f l r m n hop _ _ ihl ihr =>
    rw [evaluate_node hrules.nonGrowing ∅ rfl]
    have hnode : ((apply op [l, r]).mapOperands (ev.evaluate ∅)).ExactValue (f m n) :=
      .operation hop ihl ihr
    have hno : ∀ a ∈ (apply op [l, r]).operands, ev.evaluate ∅ a ≠ typeError := by
      intro a ha htype
      have htypeError : ∀ z, ¬ typeError.ExactValue z := fun z hz => by
        obtain ⟨k, -, hk⟩ := hz.exists_integer
        cases hk
      rcases List.mem_pair.mp ha with rfl | rfl
      · exact htypeError m (htype ▸ ihl)
      · exact htypeError n (htype ▸ ihr)
    have hrule : ev.rewritten? ((apply op [l, r]).mapOperands (ev.evaluate ∅)) = none :=
      Option.eq_none_iff_forall_ne_some.mpr fun e' he' =>
        (hrules.step he').not_exactValue _ hnode
    rw [onOperands_of_noTypeError hno, settled, hrule]
    exact exactValue_folded hev hnode

/-- **Exact arithmetic.** The value of an expression of integers, sums, differences and products is
an integer if and only if the exact values of all its parts are in the range of 64-bit words, and
then it is the exact value; otherwise its computation overflows. Evaluation ends with an expression
of the same kind and the same exact value, and with a constant in the first case only. -/
theorem arithmetic_exact {e : Expr} {z : Int} (h : e.ExactValue z) :
    ((∃ n, evaluateConstant e = .ok (.integer n)) ↔ e.Fits) ∧
      (∀ n, evaluateConstant e = .ok (.integer n) → n.toInt = z) ∧
      (¬ e.Fits → Overflows (evaluateConstant e)) ∧
      standard.Returns ∅ e (standard.evaluate ∅ e) ∧ (standard.evaluate ∅ e).ExactValue z ∧
      ((standard.evaluate ∅ e).isConst = true ↔ e.Fits) := by
  have hkeep : (standard.evaluate ∅ e).ExactValue z :=
    exactValue_evaluate (Or.inr rfl) rfl h
  have hvalue : (∃ n, evaluateConstant e = .ok (.integer n)) ↔ e.Fits := by
    rcases h.value_cases with ⟨hfits, n, -, hn⟩ | ⟨hfits, op, i, j, herr⟩
    · exact ⟨fun _ => hfits, fun _ => ⟨n, hn⟩⟩
    · simp [hfits, herr]
  refine ⟨hvalue, fun n hn => ?_, fun hfits => ?_, ?_, hkeep, ?_⟩
  · rcases h.value_cases with ⟨-, n', rfl, hn'⟩ | ⟨-, op, i, j, herr⟩
    · rw [hn] at hn'
      cases hn'
      rfl
    · rw [hn] at herr
      cases herr
  · exact (h.value_cases.resolve_left fun hvalue => hfits hvalue.1).2
  · exact returns_evaluate (HasStandardRules.nonGrowing (Or.inr rfl)) ∅ e
  · have hsettings : standard = ({} : Settings).evaluator := rfl
    rw [← hvalue, isConst_iff]
    constructor
    · rintro ⟨v, hv⟩
      rw [hv] at hkeep
      obtain ⟨n, -, rfl⟩ := hkeep.exists_integer
      rw [hsettings] at hv
      exact ⟨n, Settings.evaluateConstant_of_termFree rfl h.termFree (by simp) hv⟩
    · rintro ⟨n, hn⟩
      rw [hsettings]
      exact ⟨_, Settings.evaluate_of_conclusion rfl (by rw [hn]; rfl)⟩

/-- A sum that is out of range by one, although the whole difference is not: the product beside it
is folded, and the sum stays. -/
theorem arithmetic_exact_at :
    let sum := apply .add [const (.integer Int64.maxValue), const (.integer 1)]
    let e := apply .sub [sum, apply .mul [const (.integer 2), const (.integer 3)]]
    let z := Int64.maxValue.toInt + 1 - 6
    e.ExactValue z ∧ InRange z ∧ ¬ e.Fits ∧ Overflows (evaluateConstant e) ∧
      standard.evaluate ∅ e = apply .sub [sum, const (.integer 6)] ∧
      (standard.evaluate ∅ e).ExactValue z := by
  intro sum e z
  have hsum : sum.ExactValue (Int64.maxValue.toInt + 1) :=
    @ExactValue.operation .add _ _ _ _ _ rfl (.integer Int64.maxValue) (.integer 1)
  have hproduct : (apply .mul [const (.integer 2), const (.integer 3)]).ExactValue 6 :=
    @ExactValue.operation .mul _ _ _ _ _ rfl (.integer 2) (.integer 3)
  have h : e.ExactValue z := @ExactValue.operation .sub _ _ _ _ _ rfl hsum hproduct
  have hfits : ¬ e.Fits := fun hfits => by
    have hrange := (hfits sum _ (.inside List.mem_cons_self .here) hsum).2
    omega
  obtain ⟨-, -, hoverflows, -, hkeep, -⟩ := arithmetic_exact h
  exact ⟨h, ⟨by decide, by decide⟩, hfits, hoverflows hfits, rfl, hkeep⟩

end Evaluator

end Residual
