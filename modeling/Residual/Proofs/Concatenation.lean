import Residual.Proofs.Constant

/-!
# Concatenation in pieces

A concatenation of strings may be computed in pieces: parts of the list are concatenated first, and
the results of these after that. The text is the same, and so is the language tag, as long as no
piece is empty: an empty concatenation has no tag, whatever its neighbours have.

* `Fold.concatenation_eq`: what the loop over the operands gathers.
* `Fold.concatenation_eq_ok_iff`: when a concatenation succeeds, and with what.
* `exists_concat_value_iff`: the same for concatenations of expressions.
* `Value.commonTag?_eq_some_iff`: the tag that all values of a list carry.
* `callValue_concat_flatten`: concatenation in pieces.
-/

namespace Residual

open Value

/-! ## Texts and tags -/

/-- The text of a string, with or without a tag. Other values have none. -/
def Value.stringText (v : Value) : String := v.string?.getD ""

@[simp] theorem Value.string?_ofText (s : String) (tag : Option String) :
    (ofText s tag).string? = some s := by
  cases tag <;> rfl

@[simp] theorem Value.stringText_ofText (s : String) (tag : Option String) :
    (ofText s tag).stringText = s := by
  cases tag <;> rfl

@[simp] theorem Value.tag?_ofText (s : String) (tag : Option String) :
    (ofText s tag).tag? = tag := by
  cases tag <;> rfl

/-- The tag that all values of a list carry, if there are any. -/
def Value.commonTag? : List Value → Option String
  | [] => none
  | v :: vs => v.tag?.filter fun tag => vs.all fun w => w.tag? == some tag

theorem Value.commonTag?_eq_some_iff {vs : List Value} {tag : String} :
    commonTag? vs = some tag ↔ vs ≠ [] ∧ ∀ v ∈ vs, v.tag? = some tag := by
  cases vs with
  | nil => simp [commonTag?]
  | cons v vs =>
    simp only [commonTag?, Option.filter_eq_some_iff, List.all_eq_true, beq_iff_eq,
      List.forall_mem_cons, ne_eq, reduceCtorEq, not_false_eq_true, true_and]

theorem Fold.mapM_textOf_eq_ok_iff {op : Operator} {vs : List Value} {texts : List String} :
    vs.mapM (textOf op) = .ok texts ↔
      (∀ v ∈ vs, v.string?.isSome = true) ∧ texts = vs.map stringText := by
  induction vs generalizing texts with
  | nil =>
    rw [List.mapM_nil]
    constructor
    · intro h
      cases h
      exact ⟨by simp, rfl⟩
    · rintro ⟨-, rfl⟩
      rfl
  | cons v vs ih =>
    rw [List.mapM_cons, bind_eq_ok_iff, List.forall_mem_cons]
    have htext : ∀ s, textOf op v = .ok s ↔ v.string?.isSome = true ∧ s = v.stringText := by
      intro s
      unfold textOf stringText
      cases v.string? with
      | none => simp
      | some t => simp [eq_comm]
    constructor
    · rintro ⟨s, hs, h⟩
      obtain ⟨ss, hss, h⟩ := bind_eq_ok_iff.mp h
      cases h
      obtain ⟨hv, rfl⟩ := (htext s).mp hs
      obtain ⟨hvs, rfl⟩ := ih.mp hss
      exact ⟨⟨hv, hvs⟩, rfl⟩
    · rintro ⟨⟨hv, hvs⟩, rfl⟩
      exact ⟨_, (htext _).mpr ⟨hv, rfl⟩, bind_eq_ok_iff.mpr ⟨_, ih.mpr ⟨hvs, rfl⟩, rfl⟩⟩

/-! ## The operands one after the other -/

namespace Fold

/-- After the first operand, texts are appended and tags are compared with the first. -/
theorem Gathered.push_of_ne_zero (g : Gathered) {i : Nat} (hi : i ≠ 0) (s : String)
    (tag? : Option String) :
    g.push i s tag? = ⟨g.text ++ s, g.tag?, g.sameTag && tag? == g.tag?⟩ := by
  unfold push
  rw [if_neg hi]
  split
  · rename_i htag
    simp [htag]
  · rename_i htag
    simp [Ne.symm htag]

theorem Gathered.pushAll_eq (g : Gathered) {i : Nat} (hi : i ≠ 0) (vs : List Value) :
    g.pushAll i vs = do
      let texts ← vs.mapM (textOf .concat)
      return ⟨g.text ++ String.join texts, g.tag?, g.sameTag && vs.all (·.tag? == g.tag?)⟩ := by
  induction vs generalizing g i with
  | nil => simp [pushAll]
  | cons v vs ih =>
    rw [pushAll, List.mapM_cons]
    cases textOf .concat v with
    | error err => rfl
    | ok s =>
      refine (ih (g.push i s v.tag?) i.succ_ne_zero).trans ?_
      rw [push_of_ne_zero g hi]
      cases vs.mapM (textOf .concat) with
      | error err => rfl
      | ok texts =>
        refine congrArg Except.ok ?_
        rw [String.join_cons, List.all_cons, String.append_assoc, Bool.and_assoc]

/-- **The loop.** What is gathered are the texts, and the tag that all operands carry. -/
theorem concatenation_eq (vs : List Value) :
    concatenation vs = do
      let texts ← vs.mapM (textOf .concat)
      return ofText (String.join texts) (commonTag? vs) := by
  cases vs with
  | nil => rfl
  | cons v vs =>
    rw [concatenation, Gathered.pushAll, List.mapM_cons]
    cases textOf .concat v with
    | error err => rfl
    | ok s =>
      change (do return (← (Gathered.push {} 0 s v.tag?).pushAll 1 vs).value) = _
      rw [Gathered.pushAll_eq _ Nat.one_ne_zero]
      cases vs.mapM (textOf .concat) with
      | error err => rfl
      | ok texts =>
        refine congrArg Except.ok ?_
        rw [String.join_cons, commonTag?]
        unfold Gathered.push Gathered.value
        dsimp only [if_true]
        cases v.tag? with
        | none => rfl
        | some tag =>
          cases hall : vs.all (·.tag? == some tag) <;> simp [ofText, Option.filter, hall]

end Fold

/-- A concatenation succeeds if all operands are strings, with or without a tag. -/
theorem Fold.concatenation_eq_ok_iff {vs : List Value} {v : Value} :
    concatenation vs = .ok v ↔ (∀ w ∈ vs, w.string?.isSome = true) ∧
      v = ofText (String.join (vs.map stringText)) (commonTag? vs) := by
  rw [concatenation_eq, bind_eq_ok_iff]
  constructor
  · rintro ⟨texts, htexts, h⟩
    obtain ⟨hvs, rfl⟩ := mapM_textOf_eq_ok_iff.mp htexts
    cases h
    exact ⟨hvs, rfl⟩
  · rintro ⟨hvs, rfl⟩
    exact ⟨_, mapM_textOf_eq_ok_iff.mpr ⟨hvs, rfl⟩, rfl⟩

/-- A concatenation has a value other than the type error if all its arguments have strings, with
or without a tag, for their values. -/
theorem exists_concat_value_iff {args : List Expr} :
    (∃ v, v ≠ .typeError ∧ evaluateConstant (.apply .concat args) = .ok v) ↔
      ∀ a ∈ args, ∃ w, evaluateConstant a = .ok w ∧ w.string?.isSome = true := by
  constructor
  · rintro ⟨v, hv, h⟩ a ha
    obtain ⟨vs, hvs, hvalue⟩ := evaluateConstant_concat_eq_ok_iff.mp h
    have hmem : .typeError ∉ vs := by
      intro hmem
      rw [callValue_of_typeError hmem] at hvalue
      exact hv (Except.ok.inj hvalue).symm
    rw [callValue_of_noTypeError hmem] at hvalue
    obtain ⟨w, hw, haw⟩ := exists_of_forall₂ hvs ha
    exact ⟨w, haw, (Fold.concatenation_eq_ok_iff.mp hvalue).1 w hw⟩
  · intro h
    cases hvs : evaluateConstants args with
    | error err =>
      obtain ⟨a, ha, herr⟩ := exists_of_evaluateConstants_error hvs
      obtain ⟨w, hw, -⟩ := h a ha
      rw [hw] at herr
      cases herr
    | ok vs =>
      have hvalues := evaluateConstants_eq_ok_iff.mp hvs
      have hstrings : ∀ w ∈ vs, w.string?.isSome = true := by
        intro w hw
        obtain ⟨a, ha, haw⟩ := exists_of_forall₂ hvalues.flip hw
        obtain ⟨w', hw', hstring⟩ := h a ha
        rw [haw] at hw'
        cases hw'
        exact hstring
      have hmem : .typeError ∉ vs := by
        intro hmem
        have hstring := hstrings _ hmem
        cases hstring
      refine ⟨ofText (String.join (vs.map stringText)) (commonTag? vs), ?_, ?_⟩
      · cases commonTag? vs <;> simp [ofText]
      · refine evaluateConstant_concat_eq_ok_iff.mpr ⟨vs, hvalues, ?_⟩
        rw [callValue_of_noTypeError hmem]
        exact Fold.concatenation_eq_ok_iff.mpr ⟨hstrings, rfl⟩

/-! ## Pieces -/

/-- A value is made of one piece, itself, or it is the concatenation of one or more pieces. -/
def MadeOf (v : Value) (ws : List Value) : Prop :=
  ws = [v] ∨ (ws ≠ [] ∧ callValue .concat ws = .ok v)

namespace MadeOf

variable {v : Value} {ws : List Value}

theorem ne_nil (h : MadeOf v ws) : ws ≠ [] := by
  rcases h with rfl | ⟨hne, -⟩
  · exact List.cons_ne_nil v []
  · exact hne

theorem typeError_mem_iff (h : MadeOf v ws) : .typeError ∈ ws ↔ v = .typeError := by
  rcases h with rfl | ⟨-, hv⟩
  · rw [List.mem_singleton, eq_comm]
  · constructor
    · intro hmem
      rw [callValue_of_typeError hmem] at hv
      cases hv
      rfl
    · rintro rfl
      by_contra hmem
      rw [callValue_of_noTypeError hmem] at hv
      obtain ⟨-, h⟩ := Fold.concatenation_eq_ok_iff.mp hv
      have hstring := congrArg Value.string? h
      rw [string?_ofText] at hstring
      cases hstring

/-- A string is made of strings, whose texts make up its text, and which have its tag. -/
theorem strings (h : MadeOf v ws) (hv : v.string?.isSome = true) :
    (∀ w ∈ ws, w.string?.isSome = true) ∧ String.join (ws.map stringText) = v.stringText ∧
      ∀ tag, v.tag? = some tag ↔ ∀ w ∈ ws, w.tag? = some tag := by
  rcases h with rfl | ⟨hne, hws⟩
  · simp [hv]
  · have hmem : .typeError ∉ ws := by
      intro hmem
      rw [callValue_of_typeError hmem] at hws
      cases hws
      cases hv
    rw [callValue_of_noTypeError hmem] at hws
    obtain ⟨hstrings, rfl⟩ := Fold.concatenation_eq_ok_iff.mp hws
    refine ⟨hstrings, (stringText_ofText _ _).symm, fun tag => ?_⟩
    rw [tag?_ofText, commonTag?_eq_some_iff]
    exact and_iff_right hne

end MadeOf

theorem typeError_mem_flatten_iff {vs : List Value} {wss : List (List Value)}
    (h : List.Forall₂ MadeOf vs wss) : .typeError ∈ wss.flatten ↔ .typeError ∈ vs := by
  induction h with
  | nil => simp
  | cons hv _ ih =>
    rw [List.flatten_cons, List.mem_append, List.mem_cons, ih, hv.typeError_mem_iff, eq_comm]

/-- A concatenation of strings that are made of pieces is the concatenation of all pieces. -/
theorem strings_flatten {vs : List Value} {wss : List (List Value)}
    (h : List.Forall₂ MadeOf vs wss) (hvs : ∀ v ∈ vs, v.string?.isSome = true) :
    (∀ w ∈ wss.flatten, w.string?.isSome = true) ∧
      String.join (wss.flatten.map stringText) = String.join (vs.map stringText) ∧
      (wss.flatten = [] ↔ vs = []) ∧
      ∀ tag, (∀ w ∈ wss.flatten, w.tag? = some tag) ↔ ∀ v ∈ vs, v.tag? = some tag := by
  induction h with
  | nil => simp
  | @cons v ws vs wss hv _ ih =>
    rw [List.forall_mem_cons] at hvs
    obtain ⟨hstrings, htext, htag⟩ := hv.strings hvs.1
    obtain ⟨ihstrings, ihtext, -, ihtag⟩ := ih hvs.2
    rw [List.flatten_cons]
    refine ⟨List.forall_mem_append.mpr ⟨hstrings, ihstrings⟩, ?_, ?_, fun tag => ?_⟩
    · rw [List.map_append, String.join_append, htext, ihtext, List.map_cons, String.join_cons]
    · simp [hv.ne_nil]
    · rw [List.forall_mem_append, List.forall_mem_cons, htag tag, ihtag tag]

/-- Concatenation in pieces. -/
theorem callValue_concat_flatten {vs : List Value} {wss : List (List Value)} {v : Value}
    (h : List.Forall₂ MadeOf vs wss) (hv : callValue .concat vs = .ok v) :
    callValue .concat wss.flatten = .ok v := by
  by_cases hmem : .typeError ∈ vs
  · rw [callValue_of_typeError hmem] at hv
    rw [callValue_of_typeError ((typeError_mem_flatten_iff h).mpr hmem), hv]
  · rw [callValue_of_noTypeError hmem] at hv
    rw [callValue_of_noTypeError fun hflat => hmem ((typeError_mem_flatten_iff h).mp hflat)]
    obtain ⟨hvs, rfl⟩ := Fold.concatenation_eq_ok_iff.mp hv
    obtain ⟨hstrings, htext, hnil, htag⟩ := strings_flatten h hvs
    refine Fold.concatenation_eq_ok_iff.mpr ⟨hstrings, ?_⟩
    have hcommon : commonTag? wss.flatten = commonTag? vs := by
      refine Option.ext fun tag => ?_
      rw [commonTag?_eq_some_iff, commonTag?_eq_some_iff, htag tag, ne_eq, hnil]
    rw [htext, hcommon]

end Residual
