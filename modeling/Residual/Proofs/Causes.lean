import Residual.Proofs.Concatenation
import Residual.Proofs.Origin

/-!
# Why there is a type error

Only comparisons fail for want of an order or an equality, and no operator makes the type error out
of other values. So the type error and failed comparisons have their cause inside the expression: a
constant that is the type error, or the call of a comparison. Evaluation under the standard rules
brings in neither of them.

* `Fold.Settles`: what neither gives the type error nor fails to compare.
* `Operator.apply_cases`: operators settle, except for comparisons of values that have no order.
* `evaluateConstant_cases`: where the type error and failures to compare come from.
* `Expr.IsCause`, `Evaluator.inherited_isCause`: the causes, none of which evaluation brings in.
* `Evaluator.typeError_has_cause`: a type error has a cause.
-/

namespace Residual

open Residual.Expr

/-! ## Operators on values -/

namespace Fold

variable {α β : Type} {P : α → Prop}

/-- Every result satisfies the condition, and no failure is that of a comparison. -/
def Settles (x : Except FoldError α) (P : α → Prop) : Prop :=
  (∀ a, x = .ok a → P a) ∧ ∀ err, x = .error err → err.isNotComparable = false

theorem settles_ok {a : α} (h : P a) : Settles (.ok a) P := by
  refine ⟨fun b hb => ?_, fun err herr => ?_⟩
  · cases hb
    exact h
  · cases herr

theorem settles_error {err : FoldError} (h : err.isNotComparable = false) :
    Settles (.error err) P := by
  refine ⟨fun a ha => ?_, fun err' herr => ?_⟩
  · cases ha
  · cases herr
    exact h

theorem Settles.mono {Q : α → Prop} {x : Except FoldError α} (h : Settles x P)
    (hPQ : ∀ a, P a → Q a) : Settles x Q :=
  ⟨fun a ha => hPQ a (h.1 a ha), h.2⟩

theorem Settles.bind {x : Except FoldError α} {f : α → Except FoldError β} {Q : β → Prop}
    (hx : Settles x P) (hf : ∀ a, P a → Settles (f a) Q) : Settles (x >>= f) Q := by
  cases x with
  | error err => exact settles_error (hx.2 err rfl)
  | ok a => exact hf a (hx.1 a rfl)

theorem settles_mapM {f : β → Except FoldError α} {bs : List β} (h : ∀ b, Settles (f b) P) :
    Settles (bs.mapM f) fun as => ∀ a ∈ as, P a := by
  induction bs with
  | nil => exact settles_ok (by simp)
  | cons b bs ih =>
    rw [List.mapM_cons]
    refine (h b).bind fun a ha => ih.bind fun as has => settles_ok ?_
    simpa using ⟨ha, has⟩

variable {l r v : Value}

theorem settles_textOf {op : Operator} : Settles (textOf op v) fun _ => True := by
  unfold textOf
  split
  · exact settles_ok trivial
  · exact settles_error rfl

theorem settles_truth {op : Operator} : Settles (truth op v) fun _ => True := by
  unfold truth
  split
  · exact settles_ok trivial
  · exact settles_error rfl

theorem isNative_ofText (s : String) (tag : Option String) : (Value.ofText s tag).IsNative := by
  cases tag <;> trivial

theorem settles_conjunction : Settles (conjunction l r) Value.IsNative := by
  refine settles_truth.bind fun b _ => ?_
  cases b with
  | true => exact settles_truth.bind fun _ _ => settles_ok trivial
  | false => exact settles_ok trivial

theorem settles_disjunction : Settles (disjunction l r) Value.IsNative := by
  refine settles_truth.bind fun b _ => ?_
  cases b with
  | true => exact settles_ok trivial
  | false => exact settles_truth.bind fun _ _ => settles_ok trivial

theorem settles_negation : Settles (negation v) Value.IsNative :=
  settles_truth.bind fun _ _ => settles_ok trivial

theorem settles_calculate {op : Operator} {exact : Int → Int → Int}
    {rounded : Float → Float → Float} :
    Settles (calculate op exact rounded l r) Value.IsNative := by
  unfold calculate
  split
  · split
    · exact settles_ok trivial
    · exact settles_error rfl
  · exact settles_ok trivial
  · exact settles_error rfl

theorem settles_quotient : Settles (quotient l r) Value.IsNative := by
  unfold quotient
  split
  · split
    · exact settles_error rfl
    · exact settles_ok trivial
  · exact settles_error rfl

theorem settles_concatenation {vs : List Value} : Settles (concatenation vs) Value.IsNative := by
  rw [concatenation_eq]
  exact (settles_mapM fun _ => settles_textOf).bind fun _ _ => settles_ok (isNative_ofText _ _)

theorem settles_length : Settles (length v) Value.IsNative :=
  settles_textOf.bind fun _ _ => settles_ok trivial

theorem settles_mapText {op : Operator} {f : List Char → List Char} :
    Settles (mapText op f v) Value.IsNative :=
  settles_textOf.bind fun _ _ => settles_ok (isNative_ofText _ _)

theorem settles_relation {op : Operator} {holds : List Char → List Char → Bool} :
    Settles (relation op holds l r) Value.IsNative :=
  settles_textOf.bind fun _ _ => settles_textOf.bind fun _ _ => settles_ok trivial

theorem equality_cases (test : Bool → Bool) (l r : Value) :
    Settles (equality test l r) Value.IsNative ∨
      equality test l r = .error (.notComparable l r) := by
  unfold equality
  split
  · exact Or.inl (settles_ok trivial)
  · exact Or.inr rfl

theorem ordering_cases (test : Ordering → Bool) (l r : Value) :
    Settles (ordering test l r) Value.IsNative ∨
      ordering test l r = .error (.notComparable l r) := by
  unfold ordering
  split
  · exact Or.inl (settles_ok trivial)
  · exact Or.inr rfl

end Fold

open Fold

/-- With another number of operands than it takes, an operator fails. -/
theorem Operator.apply_of_arity {op : Operator} {n : Nat} (h : op.arity = some n)
    (vs : List Value) :
    vs.length = n ∨ op.apply vs = .error (.argumentCount op.name n vs.length) := by
  unfold apply
  split
  all_goals first
    | exact Or.inl (Option.some.inj h)
    | exact Or.inr (by rw [h]; rfl)
    | cases h

theorem Operator.settles_unary {op : Operator} {vs : List Value} {P : Value → Prop}
    (h : op.arity = some 1) (hop : ∀ v, Settles (op.apply [v]) P) : Settles (op.apply vs) P := by
  rcases apply_of_arity h vs with hlength | herr
  · obtain ⟨v, rfl⟩ := List.length_eq_one_iff.mp hlength
    exact hop v
  · rw [herr]
    exact settles_error rfl

theorem Operator.settles_binary {op : Operator} {vs : List Value} {P : Value → Prop}
    (h : op.arity = some 2) (hop : ∀ l r, Settles (op.apply [l, r]) P) :
    Settles (op.apply vs) P := by
  rcases apply_of_arity h vs with hlength | herr
  · obtain ⟨l, r, rfl⟩ := List.length_eq_two.mp hlength
    exact hop l r
  · rw [herr]
    exact settles_error rfl

/-- All operators but the comparisons settle whatever they are given. -/
theorem Operator.settles_apply {op : Operator} (h : op.isComparison = false) (vs : List Value) :
    Settles (op.apply vs) Value.IsNative := by
  cases op with
  | eq | ne | lt | le | gt | ge => cases h
  | and => exact settles_binary rfl fun _ _ => settles_conjunction
  | or => exact settles_binary rfl fun _ _ => settles_disjunction
  | not => exact settles_unary rfl fun _ => settles_negation
  | add | sub | mul => exact settles_binary rfl fun _ _ => settles_calculate
  | div => exact settles_binary rfl fun _ _ => settles_quotient
  | str | isIri | isLiteral => exact settles_unary rfl fun _ => settles_ok trivial
  | lang | datatype =>
    refine settles_unary rfl fun v => ?_
    rw [apply]
    split
    · exact settles_ok trivial
    · exact settles_error rfl
  | concat => exact settles_concatenation
  | strLen => exact settles_unary rfl fun _ => settles_length
  | uCase | lCase => exact settles_unary rfl fun _ => settles_mapText
  | contains | strStarts | strEnds =>
    refine settles_binary rfl fun l r => ?_
    rw [apply]
    exact settles_relation

theorem Operator.apply_cases (op : Operator) (vs : List Value) :
    Settles (op.apply vs) Value.IsNative ∨
      op.isComparison = true ∧ ∃ l r, vs = [l, r] ∧ op.apply vs = .error (.notComparable l r) := by
  cases hop : op.isComparison with
  | false => exact Or.inl (settles_apply hop vs)
  | true =>
    have harity : op.arity = some 2 := by
      cases op <;> first | rfl | cases hop
    rcases apply_of_arity harity vs with hlength | herr
    · obtain ⟨l, r, rfl⟩ := List.length_eq_two.mp hlength
      have hcompare : Settles (op.apply [l, r]) Value.IsNative ∨
          op.apply [l, r] = .error (.notComparable l r) := by
        cases op with
        | eq => exact equality_cases id l r
        | ne => exact equality_cases (!·) l r
        | lt => exact ordering_cases (·.isLT) l r
        | le => exact ordering_cases (·.isLE) l r
        | gt => exact ordering_cases (·.isGT) l r
        | ge => exact ordering_cases (·.isGE) l r
        | _ => cases hop
      exact hcompare.imp_right fun herr => ⟨rfl, l, r, rfl, herr⟩
    · rw [herr]
      exact Or.inl (settles_error rfl)

/-! ## Values of expressions -/

/-- What a node computes of its own: no type error, and only literals in canonical form. -/
def Value.IsComputed (v : Value) : Prop := v ≠ .typeError ∧ v.IsCanonical

theorem Value.IsNative.isComputed {v : Value} (h : v.IsNative) : v.IsComputed :=
  ⟨h.ne_typeError, h.isCanonical⟩

theorem settles_termValue {v w : Value} (hv : v ≠ .typeError) (hw : w ≠ .typeError) :
    Settles (termValue v w) Value.IsComputed := by
  cases hname : w.datatypeName? with
  | some name =>
    rw [termValue_of_datatypeName hv hname]
    exact settles_ok ⟨Value.ofLexical_ne_typeError _ _, Value.isCanonical_ofLexical _ _⟩
  | none =>
    rw [termValue_of_noDatatypeName hv hw hname]
    exact settles_error rfl

/-- A comparison of two expressions with these values, none of which is the type error. -/
def Expr.Compares (l r : Value) (e : Expr) : Prop :=
  ∃ op a c, op.isComparison = true ∧ e = apply op [a, c] ∧ evaluateConstant a = .ok l ∧
    evaluateConstant c = .ok r ∧ l ≠ .typeError ∧ r ≠ .typeError

theorem Operator.name_of_ofCall {name : Option String} {count : Nat} {op : Operator}
    (h : ofCall name count = .ok op) : name = some op.name :=
  (identifierOf_eq_some_iff.mp (identifierOf_of_ofCall h)).1

theorem call_cases (name : Option String) (args : List Expr) :
    (∃ a ∈ args, evaluateConstant a = evaluateConstant (call name args)) ∨
      Settles (evaluateConstant (call name args)) Value.IsComputed ∨
      ∃ l r, Compares l r (call name args) ∧
        evaluateConstant (call name args) = .error (.notComparable l r) := by
  rcases call_outcome name args with
    ⟨err, hop, herr⟩ | ⟨a, ha, -, heq⟩ | ⟨op, vs, hop, hvalues, hno, happly⟩
  · rw [herr]
    exact Or.inr (Or.inl (settles_error (Operator.isNotComparable_of_ofCall hop)))
  · exact Or.inl ⟨a, ha, heq⟩
  · rw [happly]
    refine Or.inr ((op.apply_cases vs).imp (·.mono fun _ => Value.IsNative.isComputed) ?_)
    rintro ⟨hcompare, l, r, rfl, herr⟩
    obtain ⟨a, _, hl, hrest, rfl⟩ := List.forall₂_cons_right_iff.mp hvalues
    obtain ⟨c, _, hr, hnil, rfl⟩ := List.forall₂_cons_right_iff.mp hrest
    rw [List.forall₂_nil_right_iff.mp hnil, Operator.name_of_ofCall hop]
    refine ⟨l, r, ⟨op, a, c, hcompare, rfl, hl, hr, ?_, ?_⟩, herr⟩
    · exact fun h => hno (by simp [h])
    · exact fun h => hno (by simp [h])

theorem term_cases (l d : Expr) :
    (∃ a ∈ [l, d], evaluateConstant a = evaluateConstant (term l d)) ∨
      Settles (evaluateConstant (term l d)) Value.IsComputed := by
  rcases term_outcome l d with ⟨a, ha, -, heq⟩ | ⟨v, w, -, -, hv, hw, heq⟩
  · exact Or.inl ⟨a, ha, heq⟩
  · rw [heq]
    exact Or.inr (settles_termValue hv hw)

/-- The outcome of a node is that of an operand, or it is a value computed by the node itself or a
failure that is not one to compare, or it is the failure of the node to compare its operands. -/
theorem node_cases {e : Expr} (he : e.isNode = true) :
    (∃ a ∈ e.operands, evaluateConstant a = evaluateConstant e) ∨
      Settles (evaluateConstant e) Value.IsComputed ∨
      ∃ l r, Compares l r e ∧ evaluateConstant e = .error (.notComparable l r) := by
  cases e with
  | const v => cases he
  | var x => cases he
  | call name args => exact call_cases name args
  | term l d => exact (term_cases l d).imp_right Or.inl

/-- A type error as the value of an expression occurs in it, and so does a comparison that fails. -/
theorem evaluateConstant_cases (e : Expr) :
    Settles (evaluateConstant e) (· ≠ .typeError) ∨
      (evaluateConstant e = .ok .typeError ∧ typeError.OccursIn e) ∨
      ∃ l r, evaluateConstant e = .error (.notComparable l r) ∧ e.Has (Compares l r) := by
  induction e using nodeInduction with
  | const v =>
    by_cases hv : v = .typeError
    · subst hv
      exact Or.inr (Or.inl ⟨by rw [evaluateConstant], .here⟩)
    · rw [evaluateConstant]
      exact Or.inl (settles_ok hv)
  | var x =>
    rw [evaluateConstant]
    exact Or.inl (settles_error rfl)
  | node e he ih =>
    rcases node_cases he with ⟨a, ha, heq⟩ | hsettles | ⟨l, r, hcompares, herr⟩
    · rw [← heq]
      refine (ih a ha).imp_right (Or.imp ?_ ?_)
      · rintro ⟨hvalue, hocc⟩
        exact ⟨hvalue, .inside ha hocc⟩
      · rintro ⟨l, r, herr, hcompares⟩
        exact ⟨l, r, herr, .of_operand ha hcompares⟩
    · exact Or.inl (hsettles.mono fun _ => And.left)
    · exact Or.inr (Or.inr ⟨l, r, herr, has_iff.mpr (Or.inl hcompares)⟩)

/-! ## Results of evaluations -/

/-- What may lead to a type error: the type error itself, and comparisons. -/
def Expr.IsCause (e : Expr) : Prop :=
  e = typeError ∨ ∃ op args, op.isComparison = true ∧ e = apply op args

theorem Expr.Compares.isCause {l r : Value} {e : Expr} (h : Compares l r e) : e.IsCause := by
  obtain ⟨op, a, c, hcompare, rfl, -⟩ := h
  exact Or.inr ⟨op, [a, c], hcompare, rfl⟩

@[simp] theorem Expr.isCause_const {v : Value} : (const v).IsCause ↔ v = .typeError := by
  simp [IsCause, typeError, apply]

@[simp] theorem Expr.not_isCause_var {x : String} : ¬ (var x).IsCause := by
  simp [IsCause, typeError, apply]

@[simp] theorem Expr.isCause_call {name : Option String} {args : List Expr} :
    (call name args).IsCause ↔ ((name.bind Operator.ofName?).any (·.isComparison)) = true := by
  simp only [IsCause, typeError, apply, reduceCtorEq, false_or, Option.any_eq_true,
    Option.bind_eq_some_iff, Operator.ofName?_eq_some_iff, call.injEq]
  constructor
  · rintro ⟨op, args', hcompare, rfl, -⟩
    exact ⟨op, ⟨op.name, rfl, rfl⟩, hcompare⟩
  · rintro ⟨op, ⟨f, rfl, rfl⟩, hcompare⟩
    exact ⟨op, args, hcompare, rfl, rfl⟩

@[simp] theorem Expr.not_isCause_term {l d : Expr} : ¬ (term l d).IsCause := by
  simp [IsCause, typeError, apply]

namespace Evaluator

section

variable {ev : Evaluator} (hev : ev.constants = evaluateConstant)

include hev

theorem has_cause_of_folded {e : Expr} (h : ev.folded e = typeError) : e.Has IsCause := by
  have hself : e = typeError → e.Has IsCause := fun he => has_iff.mpr (Or.inl (Or.inl he))
  unfold folded at h
  split at h
  · rw [hev] at h
    rcases evaluateConstant_cases e with ⟨hok, herror⟩ | ⟨-, hocc⟩ | ⟨l, r, -, n, hn, hcompares⟩
    · cases hvalue : evaluateConstant e with
      | ok v =>
        rw [hvalue] at h
        exact absurd (const.inj h) (hok v hvalue)
      | error err =>
        rw [hvalue, foldedTo, herror err hvalue] at h
        exact hself h
    · exact ⟨typeError, hocc, Or.inl rfl⟩
    · exact ⟨n, hn, hcompares.isCause⟩
  · exact hself h

theorem inherited_isCause : ev.Inherited IsCause where
  call h := isCause_call.mpr (isCause_call.mp h)
  term _ _ := not_isCause_term
  string := by simp
  iri := by simp
  folded := by
    intro e h
    rcases ev.folded_cases e with ⟨v, hv⟩ | hself
    · rw [hv, has_const, isCause_const] at h
      exact has_cause_of_folded hev (by rw [hv, h]; rfl)
    · rwa [hself] at h

end

/-- **Causes of type errors.** If the value of an expression cannot be computed because two values
are not comparable, a comparison of two expressions with these values occurs in it, and neither is
the type error. If an expression is evaluated to the type error under the standard rules or none,
the type error or the call of a comparison occurs in it or in an expression bound to one of its
variables, whatever the registry. -/
theorem typeError_has_cause (e : Expr) :
    (∀ l r, evaluateConstant e = .error (.notComparable l r) →
      ∃ op a c, op.isComparison = true ∧ (apply op [a, c]).OccursIn e ∧
        evaluateConstant a = .ok l ∧ evaluateConstant c = .ok r ∧
        l ≠ .typeError ∧ r ≠ .typeError) ∧
    ∀ (ev : Evaluator) (b : Binding), ev.HasStandardRules → ev.constants = evaluateConstant →
      ev.Returns b e typeError →
        e.Has IsCause ∨ ∃ x a, (var x).OccursIn e ∧ b.find? x = some a ∧ a.Has IsCause := by
  refine ⟨fun l r herr => ?_, fun ev b hrules hev h => ?_⟩
  · rcases evaluateConstant_cases e with hsettles | ⟨hok, -⟩ | ⟨l', r', herr', n, hn, hcompares⟩
    · cases hsettles.2 _ herr
    · rw [herr] at hok
      cases hok
    · rw [herr] at herr'
      cases herr'
      obtain ⟨op, a, c, hcompare, rfl, hvalues⟩ := hcompares
      exact ⟨op, a, c, hcompare, hn, hvalues⟩
  · refine (inherited_isCause hev).of_evaluate hrules ?_
    rw [(returns_evaluate hrules.nonGrowing b e).unique h]
    exact has_const.mpr (Or.inl rfl)

/-- A typed term of an integer is less than no string. The comparison is bound to a variable deep
inside an expression that has no cause of its own. -/
theorem typeError_has_cause_at :
    let three := term (const (.string "3")) (const (.iri Xsd.integer))
    let bound := apply .not [apply .lt [three, const (.string "b")]]
    let b : Binding := Dictionary.ofList [("x", bound)]
    let e := apply .concat [call (some "f") [], apply .concat [const (.string "a"), var "x"]]
    evaluateConstant bound = .error (.notComparable (.integer 3) (.string "b")) ∧
      (∃ op a c, op.isComparison = true ∧ (apply op [a, c]).OccursIn bound ∧
        evaluateConstant a = .ok (.integer 3) ∧ evaluateConstant c = .ok (.string "b")) ∧
      standard.Returns b e typeError ∧ ¬ e.Has IsCause ∧
      ∃ x a, (var x).OccursIn e ∧ b.find? x = some a ∧ a.Has IsCause := by
  intro three bound b e
  have herr : evaluateConstant bound = .error (.notComparable (.integer 3) (.string "b")) := rfl
  have hreturns : standard.Returns b e typeError := ⟨7, rfl⟩
  have hno : ¬ e.Has IsCause := by
    have hconcat : (Operator.ofName? Operator.concat.name).any (·.isComparison) = false := by decide
    have hf : (Operator.ofName? "f").any (·.isComparison) = false := by decide
    simp [e, apply, hconcat, hf]
  obtain ⟨op, a, c, hcompare, hocc, ha, hc, -⟩ := (typeError_has_cause bound).1 _ _ herr
  have hcause := (typeError_has_cause e).2 standard b (Or.inr rfl) rfl hreturns
  exact ⟨herr, ⟨op, a, c, hcompare, hocc, ha, hc⟩, hreturns, hno, hcause.resolve_left hno⟩

end Evaluator

end Residual
