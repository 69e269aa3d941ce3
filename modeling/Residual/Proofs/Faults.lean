import Residual.Fold.Checked
import Residual.Proofs.Constant

/-!
# Evaluation without faults

The evaluation of a constant never reads an operand that is not there, and never calculates by an
operator that is none of arithmetic. An operator reads as many operands as its arity says; a call
is refused if it has another number of arguments; and the arguments of a call have as many values
as there are arguments, unless one of them fails. All three have to agree for every operator, since
the check of a call and the reads of its operator do not know of each other.

* `Operator.operandAt_eq_fault_iff`, `Operator.calculateChecked_eq_fault_iff`: when there is a
  fault.
* `Operator.applyChecked_eq`: there is none with as many operands as the arity says.
* `Operator.length_of_ofCall`: calls with another number of arguments are refused.
* `evaluation_without_faults`: no expression comes to a fault.
-/

namespace Residual

open Checked

/-! ## Computations without faults -/

namespace Checked

variable {α β : Type}

/-- A computation that goes on without faults has none. -/
theorem of_bind_eq (x : Except FoldError α) {f : α → Except FoldError β} {g : α → Checked β}
    (h : ∀ a, g a = of (f a)) : of x >>= g = of (x >>= f) := by
  cases x with
  | error err => rfl
  | ok a => exact h a

theorem of_ne_fault (x : Except FoldError α) (f : Fault) : of x ≠ fault f := nofun

end Checked

/-! ## Operators -/

namespace Operator

/-- To read an operand is a fault exactly if its position is past the end of the list. -/
theorem operandAt_eq_fault_iff {op : Operator} {vs : List Value} {position : Nat} :
    op.operandAt vs position = fault (.missingOperand op position vs.length) ↔
      vs.length ≤ position := by
  rw [← List.getElem?_eq_none_iff, operandAt]
  cases vs[position]? with
  | none => exact iff_of_true rfl rfl
  | some v => exact iff_of_false nofun nofun

/-- To calculate is a fault exactly if there are two numbers, and the operator is none of the four
of arithmetic. -/
theorem calculateChecked_eq_fault_iff {op : Operator} {l r : Value} :
    op.calculateChecked l r = fault (.notArithmetic op) ↔
      (l.numeric?.isNone || r.numeric?.isNone) = false ∧ op ∉ [add, sub, mul, div] := by
  unfold calculateChecked
  split
  · rename_i hno
    exact iff_of_false nofun fun h => by simp [h.1] at hno
  · rename_i hnumbers
    rw [Bool.not_eq_true] at hnumbers
    cases op with
    | add | sub | mul | div => exact iff_of_false nofun fun h => absurd (by decide) h.2
    | _ => exact iff_of_true rfl ⟨hnumbers, by decide⟩

/-- Arithmetic reports operands that are no numbers before it looks at the operator. -/
theorem apply_of_not_numeric {op : Operator} (h : op ∈ [add, sub, mul, div]) {l r : Value}
    (hno : (l.numeric?.isNone || r.numeric?.isNone) = true) :
    op.apply [l, r] = .error (.invalidOperands op.name [l, r]) := by
  have hcalculate : ∀ exact rounded, Fold.calculate op exact rounded l r =
      .error (.invalidOperands op.name [l, r]) := by
    intro exact rounded
    unfold Fold.calculate
    cases hl : l.numeric? <;> cases hr : r.numeric? <;> simp_all
  simp only [List.mem_cons, List.not_mem_nil, or_false] at h
  rcases h with rfl | rfl | rfl | rfl
  · exact hcalculate _ _
  · exact hcalculate _ _
  · exact hcalculate _ _
  · change Fold.quotient l r = _
    unfold Fold.quotient
    cases hl : l.numeric? <;> cases hr : r.numeric? <;> simp_all

theorem calculateChecked_eq {op : Operator} (h : op ∈ [add, sub, mul, div]) (l r : Value) :
    op.calculateChecked l r = of (op.apply [l, r]) := by
  unfold calculateChecked
  split
  · rename_i hno
    rw [apply_of_not_numeric h hno]
    rfl
  · simp only [List.mem_cons, List.not_mem_nil, or_false] at h
    rcases h with rfl | rfl | rfl | rfl <;> rfl

theorem relationChecked_eq (op : Operator) (holds : List Char → List Char → Bool) (l r : Value) :
    op.relationChecked holds [l, r] = of (Fold.relation op holds l r) := by
  refine of_bind_eq (Fold.textOf op l) fun s => ?_
  exact of_bind_eq (Fold.textOf op r) fun t => rfl

theorem applyChecked_unary {op : Operator} (h : op.arity = some 1) (v : Value) :
    op.applyChecked [v] = of (op.apply [v]) := by
  cases op with
  | not => exact of_bind_eq (Fold.truth not v) fun b => rfl
  | lang | datatype => cases v <;> rfl
  | str | isIri | isLiteral | strLen | uCase | lCase => rfl
  | _ => cases h

theorem applyChecked_binary {op : Operator} (h : op.arity = some 2) (l r : Value) :
    op.applyChecked [l, r] = of (op.apply [l, r]) := by
  cases op with
  | eq | ne | lt | le | gt | ge => rfl
  | and =>
    refine of_bind_eq (Fold.truth and l) fun b => ?_
    cases b with
    | false => rfl
    | true => exact of_bind_eq (Fold.truth and r) fun _ => rfl
  | or =>
    refine of_bind_eq (Fold.truth or l) fun b => ?_
    cases b with
    | false => exact of_bind_eq (Fold.truth or r) fun _ => rfl
    | true => rfl
  | add | sub | mul | div =>
    refine Eq.trans ?_ (calculateChecked_eq (by decide) l r)
    rfl
  | contains | strStarts | strEnds => rw [applyChecked, apply, relationChecked_eq]
  | _ => cases h

/-- The step: an operator does not come to a fault on as many operands as its arity says. -/
theorem applyChecked_eq {op : Operator} {vs : List Value}
    (h : ∀ expected, op.arity = some expected → vs.length = expected) :
    op.applyChecked vs = of (op.apply vs) := by
  have harity : op = concat ∨ op.arity = some 1 ∨ op.arity = some 2 := by
    cases op <;> decide
  rcases harity with rfl | hone | htwo
  · rfl
  · obtain ⟨v, rfl⟩ := List.length_eq_one_iff.mp (h 1 hone)
    exact applyChecked_unary hone v
  · obtain ⟨l, r, rfl⟩ := List.length_eq_two.mp (h 2 htwo)
    exact applyChecked_binary htwo l r

/-- Without any operands, every operator that needs some comes to a fault. -/
theorem applyChecked_nil {op : Operator} {n : Nat} (h : op.arity = some n) :
    op.applyChecked [] = fault (.missingOperand op 0 0) := by
  cases op <;> first | rfl | cases h

/-- An operator that may be called has a number of arguments that fits its arity. -/
theorem length_of_ofCall {name : Option String} {count expected : Nat} {op : Operator}
    (h : ofCall name count = .ok op) (harity : op.arity = some expected) : count = expected := by
  have hname := identifierOf_of_ofCall h
  have hop : ofName? op.name = some op := ofName?_eq_some_iff.mpr rfl
  by_contra hcount
  simp only [ofCall, hname, hop, harity, if_neg hcount] at h
  cases h

end Operator

/-! ## Expressions -/

theorem evaluateAllChecked_eq {es : List Expr}
    (h : ∀ e ∈ es, evaluateChecked e = of (evaluateConstant e)) :
    evaluateAllChecked es = of (evaluateConstants es) := by
  induction es with
  | nil => rfl
  | cons e es ih =>
    obtain ⟨he, hes⟩ := List.forall_mem_cons.mp h
    rw [evaluateAllChecked, evaluateConstants, he, ih hes]
    refine of_bind_eq (evaluateConstant e) fun v => ?_
    exact of_bind_eq (evaluateConstants es) fun vs => rfl

/-- The step: a call does not come to a fault, if none of its arguments does. -/
theorem evaluateChecked_call {name : Option String} {args : List Expr}
    (h : ∀ a ∈ args, evaluateChecked a = of (evaluateConstant a)) :
    evaluateChecked (.call name args) = of (evaluateConstant (.call name args)) := by
  rw [evaluateChecked, evaluateConstant, evaluateAllChecked_eq h]
  cases hop : Operator.ofCall name args.length with
  | error err => rfl
  | ok op =>
    cases hvs : evaluateConstants args with
    | error err => rfl
    | ok vs =>
      have hlength : args.length = vs.length := (evaluateConstants_eq_ok_iff.mp hvs).length_eq
      have hfits : ∀ expected, op.arity = some expected → vs.length = expected :=
        fun expected harity => hlength.symm.trans (Operator.length_of_ofCall hop harity)
      change (if vs.any (·.isTypeError) then pure .typeError else op.applyChecked vs) =
        of (callValue op vs)
      rw [callValue, Operator.applyChecked_eq hfits]
      split <;> rfl

theorem evaluateChecked_eq (e : Expr) : evaluateChecked e = of (evaluateConstant e) := by
  induction e using Expr.induction with
  | const v => rfl
  | var x => rfl
  | call name args ih => exact evaluateChecked_call ih
  | term l d ihl ihd =>
    rw [evaluateChecked, evaluateConstant, ihl, ihd]
    refine of_bind_eq (evaluateConstant l) fun v => ?_
    exact of_bind_eq (evaluateConstant d) fun w => rfl

/-- **No faults.** Whatever the calls in an expression are named, and however many arguments they
have, its evaluation reads no operand that is not there and calculates by no operator that does not
calculate: it ends with a value or a failure, and with the one that `evaluateConstant` gives. -/
theorem evaluation_without_faults (e : Expr) :
    (∀ f, evaluateChecked e ≠ fault f) ∧ evaluateChecked e = of (evaluateConstant e) := by
  rw [evaluateChecked_eq]
  exact ⟨of_ne_fault _, rfl⟩

end Residual
