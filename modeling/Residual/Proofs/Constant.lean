import Mathlib.Data.List.Forall2
import Mathlib.Tactic.SplitIfs
import Residual.Fold.Constant

/-!
# Values of ground expressions

When the value of an expression can be computed, so can those of its operands, and the value of a
node depends on its operands only through theirs.

* `bind_eq_ok_iff`, `bind_eq_error_iff`: a computation in two steps succeeds if both do.
* `evaluateConstants_eq_ok_iff`, `evaluateConstant_call_eq_ok_iff`: the values of operands and of a
  call.
* `exists_of_evaluateConstants_error`: the failure of operands is that of one of them.
* `Operator.ofCall_name`, `Operator.identifierOf_of_ofCall`: an operator is called by its own name.
* `evaluateConstant_apply_const`: an operator called on constants.
* `Value.IsNative`, `Value.IsCanonical`: values that do not keep the text of a literal, or keep none
  that is the text of another value.
* `Value.Reads`, `Value.reads_ofLexical`: what the literal with a text and a datatype is.
* `Value.datatypeName?`: what a typed term may have for its datatype.
* `call_outcome`, `term_outcome`: how the outcome of a node comes about.
-/

namespace Residual

theorem bind_eq_ok_iff {ε α β : Type} {x : Except ε α} {f : α → Except ε β} {b : β} :
    x >>= f = .ok b ↔ ∃ a, x = .ok a ∧ f a = .ok b := by
  cases x with
  | error err =>
    constructor
    · intro h
      cases h
    · rintro ⟨a, ha, -⟩
      cases ha
  | ok a =>
    constructor
    · intro h
      exact ⟨a, rfl, h⟩
    · rintro ⟨a', ha, h⟩
      cases ha
      exact h

theorem bind_eq_error_iff {ε α β : Type} {x : Except ε α} {f : α → Except ε β} {err : ε} :
    x >>= f = .error err ↔ x = .error err ∨ ∃ a, x = .ok a ∧ f a = .error err := by
  cases x with
  | error err' =>
    constructor
    · intro h
      exact Or.inl (congrArg Except.error (Except.error.inj h))
    · rintro (h | ⟨a, ha, -⟩)
      · exact congrArg Except.error (Except.error.inj h)
      · cases ha
  | ok a =>
    constructor
    · intro h
      exact Or.inr ⟨a, rfl, h⟩
    · rintro (h | ⟨a', ha, h⟩)
      · cases h
      · cases ha
        exact h

theorem evaluateConstants_eq_ok_iff {es : List Expr} {vs : List Value} :
    evaluateConstants es = .ok vs ↔ List.Forall₂ (fun e v => evaluateConstant e = .ok v) es vs := by
  induction es generalizing vs with
  | nil =>
    rw [evaluateConstants, List.forall₂_nil_left_iff]
    constructor
    · intro h
      cases h
      rfl
    · rintro rfl
      rfl
  | cons e es ih =>
    rw [evaluateConstants, bind_eq_ok_iff, List.forall₂_cons_left_iff]
    constructor
    · rintro ⟨v, hv, h⟩
      obtain ⟨ws, hws, h⟩ := bind_eq_ok_iff.mp h
      cases h
      exact ⟨v, ws, hv, ih.mp hws, rfl⟩
    · rintro ⟨v, ws, hv, hws, rfl⟩
      exact ⟨v, hv, bind_eq_ok_iff.mpr ⟨ws, ih.mpr hws, rfl⟩⟩

theorem exists_of_forall₂ {α β : Type} {R : α → β → Prop} {as : List α} {bs : List β}
    (h : List.Forall₂ R as bs) {a : α} (ha : a ∈ as) : ∃ b ∈ bs, R a b := by
  induction h with
  | nil => cases ha
  | cons hab _ ih =>
    rcases List.mem_cons.mp ha with rfl | ha
    · exact ⟨_, List.mem_cons_self, hab⟩
    · obtain ⟨b, hb, hR⟩ := ih ha
      exact ⟨b, List.mem_cons_of_mem _ hb, hR⟩

theorem exists_of_evaluateConstants_error {es : List Expr} {err : FoldError}
    (h : evaluateConstants es = .error err) : ∃ a ∈ es, evaluateConstant a = .error err := by
  induction es with
  | nil => cases h
  | cons e es ih =>
    rw [evaluateConstants] at h
    cases he : evaluateConstant e with
    | error err' =>
      rw [he] at h
      cases h
      exact ⟨e, List.mem_cons_self, he⟩
    | ok v =>
      rw [he] at h
      cases hes : evaluateConstants es with
      | error err' =>
        rw [hes] at h
        cases h
        obtain ⟨a, ha, herr⟩ := ih hes
        exact ⟨a, List.mem_cons_of_mem e ha, herr⟩
      | ok vs =>
        rw [hes] at h
        cases h

theorem evaluateConstant_call_eq_ok_iff {name : Option String} {args : List Expr} {v : Value} :
    evaluateConstant (.call name args) = .ok v ↔
      ∃ op vs, Operator.ofCall name args.length = .ok op ∧
        List.Forall₂ (fun e w => evaluateConstant e = .ok w) args vs ∧ callValue op vs = .ok v := by
  rw [evaluateConstant, bind_eq_ok_iff]
  constructor
  · rintro ⟨op, hop, h⟩
    obtain ⟨vs, hvs, h⟩ := bind_eq_ok_iff.mp h
    exact ⟨op, vs, hop, evaluateConstants_eq_ok_iff.mp hvs, h⟩
  · rintro ⟨op, vs, hop, hvs, h⟩
    exact ⟨op, hop, bind_eq_ok_iff.mpr ⟨vs, evaluateConstants_eq_ok_iff.mpr hvs, h⟩⟩

theorem Operator.name_ne_empty (op : Operator) : op.name ≠ "" := by
  cases op <;> decide

/-- An operator called by its own name with the right number of arguments. -/
theorem Operator.ofCall_name {op : Operator} {count : Nat}
    (h : ∀ expected, op.arity = some expected → count = expected) :
    ofCall (some op.name) count = .ok op := by
  have hname : Expr.identifierOf (some op.name) = some op.name := by
    rw [Expr.identifierOf, Option.filter_some, if_pos (decide_eq_true op.name_ne_empty)]
  rw [ofCall, hname]
  dsimp only
  rw [ofName?_eq_some_iff.mpr rfl]
  dsimp only
  cases harity : op.arity with
  | none => rfl
  | some expected => exact if_pos (h expected harity)

theorem Operator.ofCall_name_of_arity {op : Operator} {count : Nat} (h : op.arity = some count) :
    ofCall (some op.name) count = .ok op := by
  refine ofCall_name fun expected hexpected => ?_
  rw [h] at hexpected
  exact Option.some.inj hexpected

theorem Operator.identifierOf_of_ofCall {name : Option String} {count : Nat} {op : Operator}
    (h : ofCall name count = .ok op) : Expr.identifierOf name = some op.name := by
  unfold ofCall at h
  split at h
  · cases h
  · rename_i f hname
    rw [hname]
    split at h
    · cases h
    · rename_i op' hop
      obtain rfl := ofName?_eq_some_iff.mp hop
      split at h
      · cases h
        rfl
      · split at h
        · cases h
          rfl
        · cases h

/-- What is wrong with a name or a number of arguments has to do with no comparison. -/
theorem Operator.isNotComparable_of_ofCall {name : Option String} {count : Nat} {err : FoldError}
    (h : ofCall name count = .error err) : err.isNotComparable = false := by
  unfold ofCall at h
  split at h
  · cases h
    rfl
  · split at h
    · cases h
      rfl
    · split at h
      · cases h
      · split at h
        · cases h
        · cases h
          rfl

theorem evaluateConstant_concat_eq_ok_iff {args : List Expr} {v : Value} :
    evaluateConstant (.apply .concat args) = .ok v ↔
      ∃ vs, List.Forall₂ (fun e w => evaluateConstant e = .ok w) args vs ∧
        callValue .concat vs = .ok v := by
  have hop : Operator.ofCall (some Operator.concat.name) args.length = .ok .concat :=
    Operator.ofCall_name (by simp [Operator.arity])
  rw [Expr.apply, evaluateConstant_call_eq_ok_iff]
  constructor
  · rintro ⟨op, vs, hop', hvs, hv⟩
    rw [hop] at hop'
    cases hop'
    exact ⟨vs, hvs, hv⟩
  · rintro ⟨vs, hvs, hv⟩
    exact ⟨.concat, vs, hop, hvs, hv⟩

theorem Value.isTypeError_iff {v : Value} : v.isTypeError = true ↔ v = .typeError := by
  cases v <;> simp [isTypeError]

theorem callValue_of_typeError {op : Operator} {vs : List Value} (h : .typeError ∈ vs) :
    callValue op vs = .ok .typeError := by
  rw [callValue, if_pos (List.any_eq_true.mpr ⟨_, h, rfl⟩)]

theorem callValue_of_noTypeError {op : Operator} {vs : List Value} (h : .typeError ∉ vs) :
    callValue op vs = op.apply vs := by
  refine if_neg fun hany => h ?_
  obtain ⟨v, hv, htype⟩ := List.any_eq_true.mp hany
  rwa [Value.isTypeError_iff.mp htype] at hv

theorem evaluateConstants_const (vs : List Value) :
    evaluateConstants (vs.map Expr.const) = .ok vs := by
  induction vs with
  | nil => rfl
  | cons v vs ih =>
    rw [List.map_cons, evaluateConstants, ih]
    rfl

/-- An operator called on the right number of constants, none of which is the type error. -/
theorem evaluateConstant_apply_const {op : Operator} {vs : List Value} (h : .typeError ∉ vs)
    (hop : Operator.ofCall (some op.name) vs.length = .ok op) :
    evaluateConstant (.apply op (vs.map Expr.const)) = op.apply vs := by
  rw [Expr.apply, evaluateConstant, List.length_map, hop, evaluateConstants_const]
  exact callValue_of_noTypeError h

/-! ## Typed terms -/

/-- The values other than the type error and the literals that keep their text. -/
def Value.IsNative : Value → Prop
  | typed _ _ | typeError => False
  | _ => True

/-- The value is not a literal that keeps a text which is that of another value. -/
def Value.IsCanonical (v : Value) : Prop := ∀ s name, v = typed s name → ofLexical s name = v

theorem Value.IsNative.ne_typeError {v : Value} (h : v.IsNative) : v ≠ .typeError := by
  rintro rfl
  exact h

theorem Value.IsNative.isCanonical {v : Value} (h : v.IsNative) : v.IsCanonical := by
  rintro s name rfl
  exact h.elim

theorem Value.ofLexical_string (s : String) : ofLexical s Xsd.string = string s := by
  rw [ofLexical, native?, if_pos rfl, Option.getD_some]

/-- The literal with the text and the datatype is the value: the text is read, or it is kept. -/
inductive Value.Reads (s : String) : String → Value → Prop
  | string : Reads s Xsd.string (string s)
  | boolean {b : Bool} (h : Lexical.boolean? s = some b) : Reads s Xsd.boolean (boolean b)
  | integer {n : Int64} (h : Lexical.integer? s = some n) : Reads s Xsd.integer (integer n)
  | double {d : Float} (h : Lexical.double? s = some d) : Reads s Xsd.double (double d)
  | kept {name : String} (h : native? s name = none) : Reads s name (typed s name)

theorem Value.reads_ofLexical (s name : String) : Reads s name (ofLexical s name) := by
  unfold ofLexical
  cases hv : native? s name with
  | none => exact .kept hv
  | some v =>
    unfold native? at hv
    split_ifs at hv with hstring hboolean hinteger hdouble
    · cases hv
      exact hstring ▸ .string
    · obtain ⟨b, hb, rfl⟩ := Option.map_eq_some_iff.mp hv
      exact hboolean ▸ .boolean hb
    · obtain ⟨n, hn, rfl⟩ := Option.map_eq_some_iff.mp hv
      exact hinteger ▸ .integer hn
    · obtain ⟨d, hd, rfl⟩ := Option.map_eq_some_iff.mp hv
      exact hdouble ▸ .double hd

theorem Value.Reads.isNative_or_eq {s name : String} {v : Value} (h : Reads s name v) :
    v.IsNative ∨ v = typed s name := by
  cases h with
  | kept => exact Or.inr rfl
  | _ => exact Or.inl trivial

theorem Value.isCanonical_ofLexical (s name : String) : (ofLexical s name).IsCanonical := by
  rcases (reads_ofLexical s name).isNative_or_eq with h | h
  · exact h.isCanonical
  · rw [h]
    rintro s' name' heq
    cases heq
    exact h

theorem Value.ofLexical_ne_typeError (s name : String) : ofLexical s name ≠ typeError := by
  rcases (reads_ofLexical s name).isNative_or_eq with h | h
  · exact h.ne_typeError
  · rw [h]
    exact nofun

theorem Value.Reads.datatype?_eq {s name : String} {v : Value} (h : Reads s name v) :
    v.datatype? = some name := by
  cases h <;> rfl

/-- A literal has the datatype for which its text was read, whether or not the text is a value. -/
theorem Value.datatype?_ofLexical (s name : String) : (ofLexical s name).datatype? = some name :=
  (reads_ofLexical s name).datatype?_eq

/-- The datatype that a value names. -/
def Value.datatypeName? : Value → Option String
  | iri name => some name
  | string name => some name
  | _ => none

theorem termValue_of_typeError {v w : Value} (h : v = .typeError ∨ w = .typeError) :
    termValue v w = .ok .typeError := by
  rcases h with rfl | rfl
  · rfl
  · exact if_pos (Bool.or_true _)

theorem termValue_of_datatypeName {v w : Value} {name : String} (hv : v ≠ .typeError)
    (hw : w.datatypeName? = some name) :
    termValue v w = .ok (.ofLexical v.lexicalForm name) := by
  have hv' : v.isTypeError = false := Bool.eq_false_iff.mpr fun h => hv (Value.isTypeError_iff.mp h)
  cases w with
  | iri n | string n =>
    cases hw
    rw [termValue, hv']
    rfl
  | _ => cases hw

theorem termValue_of_noDatatypeName {v w : Value} (hv : v ≠ .typeError) (hw : w ≠ .typeError)
    (hname : w.datatypeName? = none) : termValue v w = .error (.invalidDatatype w) := by
  have hv' : v.isTypeError = false := Bool.eq_false_iff.mpr fun h => hv (Value.isTypeError_iff.mp h)
  cases w with
  | iri n | string n => cases hname
  | typeError => exact absurd rfl hw
  | _ => simp [termValue, Value.isTypeError]

/-! ## Outcomes of nodes -/

/-- A failure, or the type error: an operand with this outcome has it for its node as well. -/
def Stops (x : Except FoldError Value) : Prop := ∀ v, x = .ok v → v = .typeError

theorem stops_error (err : FoldError) : Stops (.error err) := by
  intro v h
  cases h

theorem stops_typeError : Stops (.ok .typeError) := by
  intro v h
  cases h
  rfl

/-- A call fails for its name or its number of arguments, or has the outcome of an argument that
stops it, or that of its operator on the values of its arguments. -/
theorem call_outcome (name : Option String) (args : List Expr) :
    (∃ err, Operator.ofCall name args.length = .error err ∧
      evaluateConstant (.call name args) = .error err) ∨
    (∃ a ∈ args, Stops (evaluateConstant a) ∧
      evaluateConstant a = evaluateConstant (.call name args)) ∨
    ∃ op vs, Operator.ofCall name args.length = .ok op ∧
      List.Forall₂ (fun a v => evaluateConstant a = .ok v) args vs ∧ .typeError ∉ vs ∧
      evaluateConstant (.call name args) = op.apply vs := by
  rw [evaluateConstant]
  cases hop : Operator.ofCall name args.length with
  | error err => exact Or.inl ⟨err, rfl, rfl⟩
  | ok op =>
    refine Or.inr ?_
    cases hvs : evaluateConstants args with
    | error err =>
      obtain ⟨a, ha, herr⟩ := exists_of_evaluateConstants_error hvs
      exact Or.inl ⟨a, ha, herr ▸ stops_error err, herr⟩
    | ok vs =>
      have hvalues := evaluateConstants_eq_ok_iff.mp hvs
      by_cases htype : .typeError ∈ vs
      · obtain ⟨a, ha, hvalue⟩ := exists_of_forall₂ hvalues.flip htype
        refine Or.inl ⟨a, ha, hvalue ▸ stops_typeError, ?_⟩
        exact hvalue.trans (callValue_of_typeError htype).symm
      · exact Or.inr ⟨op, vs, rfl, hvalues, htype, callValue_of_noTypeError htype⟩

/-- A typed term has the outcome of a part that stops it, or the literal of the values of its
parts. -/
theorem term_outcome (l d : Expr) :
    (∃ a ∈ [l, d], Stops (evaluateConstant a) ∧
      evaluateConstant a = evaluateConstant (.term l d)) ∨
    ∃ v w, evaluateConstant l = .ok v ∧ evaluateConstant d = .ok w ∧ v ≠ .typeError ∧
      w ≠ .typeError ∧ evaluateConstant (.term l d) = termValue v w := by
  rw [evaluateConstant]
  cases hl : evaluateConstant l with
  | error err => exact Or.inl ⟨l, List.mem_cons_self, hl ▸ stops_error err, hl⟩
  | ok v =>
    cases hd : evaluateConstant d with
    | error err => exact Or.inl ⟨d, by simp, hd ▸ stops_error err, hd⟩
    | ok w =>
      by_cases htype : v = .typeError ∨ w = .typeError
      · have hvalue := (termValue_of_typeError htype).symm
        rcases htype with rfl | rfl
        · exact Or.inl ⟨l, List.mem_cons_self, hl ▸ stops_typeError, hl.trans hvalue⟩
        · exact Or.inl ⟨d, by simp, hd ▸ stops_typeError, hd.trans hvalue⟩
      · obtain ⟨hv, hw⟩ := not_or.mp htype
        exact Or.inr ⟨v, w, rfl, rfl, hv, hw, rfl⟩

end Residual
