import Mathlib.Algebra.GroupWithZero.Nat
import Mathlib.Algebra.Ring.Int.Defs
import Residual.Proofs.Concatenation

/-!
# Functions on strings

Concatenation joins the texts of its operands, and the other functions on strings count, search and
compare texts by characters. So they go together: the length of a concatenation is the sum of the
lengths of its operands, it starts with the first of them, ends with the last and contains them all.
Of these, concatenation alone looks at language tags, and keeps one that all operands have.

* `Text.occursIn_iff_infix`: what the search for a text finds.
* `Fold.concatenation_eq_error_iff`: where a concatenation fails.
* `concat_of_constants`: the text and the language tag of a concatenation.
* `Answers`: a test that comes out as the truth value of a statement.
* `strStarts_answers`, `strEnds_answers`, `contains_answers`: what the tests on texts say.
* `string_functions_agree`: concatenation, length and the tests.
-/

namespace Residual

open Residual.Expr

/-! ## Texts inside texts -/

namespace Text

theorem occursIn_iff_infix {needle text : List Char} :
    occursIn needle text = true ↔ needle <:+: text := by
  induction text with
  | nil => rw [occursIn, List.isEmpty_iff, List.infix_nil]
  | cons c cs ih =>
    rw [occursIn, Bool.or_eq_true, ih, List.isPrefixOf_iff_prefix, List.infix_cons_iff]

variable {s t : String}

theorem prefix_toList_iff : t.toList <+: s.toList ↔ ∃ after, s = t ++ after := by
  constructor
  · rintro ⟨cs, h⟩
    refine ⟨String.ofList cs, String.toList_inj.mp ?_⟩
    rw [String.toList_append, String.toList_ofList, h]
  · rintro ⟨after, rfl⟩
    exact ⟨after.toList, String.toList_append.symm⟩

theorem suffix_toList_iff : t.toList <:+ s.toList ↔ ∃ before, s = before ++ t := by
  constructor
  · rintro ⟨cs, h⟩
    refine ⟨String.ofList cs, String.toList_inj.mp ?_⟩
    rw [String.toList_append, String.toList_ofList, h]
  · rintro ⟨before, rfl⟩
    exact ⟨before.toList, String.toList_append.symm⟩

theorem infix_toList_iff : t.toList <:+: s.toList ↔ ∃ before after, s = before ++ t ++ after := by
  constructor
  · rintro ⟨cs, cs', h⟩
    refine ⟨String.ofList cs, String.ofList cs', String.toList_inj.mp ?_⟩
    rw [String.toList_append, String.toList_append, String.toList_ofList, String.toList_ofList, h]
  · rintro ⟨before, after, rfl⟩
    exact ⟨before.toList, after.toList, by rw [String.toList_append, String.toList_append]⟩

end Text

/-! ## Strings among the values -/

namespace Value

variable {v : Value}

theorem string?_eq_some_iff {s : String} :
    v.string? = some s ↔ v = .string s ∨ ∃ tag, v = .langString s tag := by
  cases v <;> simp [string?]

theorem string?_of_isSome (h : v.string?.isSome = true) : v.string? = some v.stringText := by
  obtain ⟨s, hs⟩ := Option.isSome_iff_exists.mp h
  rw [stringText, hs, Option.getD_some]

theorem ne_typeError_of_string? {s : String} (h : v.string? = some s) : v ≠ .typeError := by
  rintro rfl
  cases h

theorem tag?_eq_some_iff {tag : String} : v.tag? = some tag ↔ ∃ s, v = .langString s tag := by
  cases v <;> simp [tag?]

end Value

open Value

/-! ## Concatenation -/

namespace Fold

theorem mapM_textOf_eq_error_iff {op : Operator} {vs : List Value} {err : FoldError} :
    vs.mapM (textOf op) = .error err ↔
      ∃ w, vs.find? (·.string?.isNone) = some w ∧ err = .invalidOperands op.name [w] := by
  induction vs with
  | nil =>
    constructor
    · intro h
      cases h
    · rintro ⟨w, h, -⟩
      cases h
  | cons v vs ih =>
    rw [List.mapM_cons, bind_eq_error_iff, List.find?_cons, textOf]
    cases hv : v.string? with
    | none =>
      constructor
      · rintro (h | ⟨s, h, -⟩)
        · cases h
          exact ⟨v, rfl, rfl⟩
        · cases h
      · rintro ⟨w, h, rfl⟩
        cases h
        exact Or.inl rfl
    | some s =>
      dsimp only [Option.isNone_some]
      rw [← ih, or_iff_right nofun]
      constructor
      · rintro ⟨s', -, h⟩
        rcases bind_eq_error_iff.mp h with h | ⟨texts, -, h⟩
        · exact h
        · cases h
      · intro h
        exact ⟨s, rfl, bind_eq_error_iff.mpr (Or.inl h)⟩

/-- A concatenation fails because of the first operand that is no string. -/
theorem concatenation_eq_error_iff {vs : List Value} {err : FoldError} :
    concatenation vs = .error err ↔ ∃ w, vs.find? (·.string?.isNone) = some w ∧
      err = .invalidOperands Operator.concat.name [w] := by
  rw [concatenation_eq, bind_eq_error_iff, mapM_textOf_eq_error_iff, or_iff_left]
  rintro ⟨texts, -, h⟩
  cases h

end Fold

theorem evaluateConstant_concat_const {vs : List Value} (h : .typeError ∉ vs) :
    evaluateConstant (apply .concat (vs.map const)) = Fold.concatenation vs :=
  evaluateConstant_apply_const h (Operator.ofCall_name nofun)

/-- **Concatenation.** The concatenation of constants, none of which is the type error, has a value
if and only if all are strings, with or without a language tag. The text of the value is made of
their texts in order; it has a language tag if there is at least one operand and all of them have
this tag, and otherwise it is a plain string. A concatenation without a value fails because of the
first operand that is no string. -/
theorem concat_of_constants {vs : List Value} (hno : .typeError ∉ vs) :
    ((∃ v, evaluateConstant (apply .concat (vs.map const)) = .ok v) ↔
      ∀ w ∈ vs, ∃ s, w = .string s ∨ ∃ tag, w = .langString s tag) ∧
    (∀ v, evaluateConstant (apply .concat (vs.map const)) = .ok v →
      v.string? = some (String.join (vs.map stringText)) ∧
      (∀ tag, (∃ s, v = .langString s tag) ↔ vs ≠ [] ∧ ∀ w ∈ vs, ∃ s, w = .langString s tag) ∧
      ((¬ ∃ tag, vs ≠ [] ∧ ∀ w ∈ vs, ∃ s, w = .langString s tag) → ∃ s, v = .string s)) ∧
    ∀ err, evaluateConstant (apply .concat (vs.map const)) = .error err ↔
      ∃ w, vs.find? (·.string?.isNone) = some w ∧
        err = .invalidOperands Operator.concat.name [w] := by
  rw [evaluateConstant_concat_const hno]
  refine ⟨?_, fun v hv => ?_, fun err => Fold.concatenation_eq_error_iff⟩
  · simp only [Fold.concatenation_eq_ok_iff, ← string?_eq_some_iff, Option.isSome_iff_exists]
    constructor
    · rintro ⟨v, hvs, -⟩
      exact hvs
    · intro hvs
      exact ⟨_, hvs, rfl⟩
  · obtain ⟨-, rfl⟩ := Fold.concatenation_eq_ok_iff.mp hv
    have htag : ∀ tag, commonTag? vs = some tag ↔
        vs ≠ [] ∧ ∀ w ∈ vs, ∃ s, w = .langString s tag := by
      intro tag
      simp only [commonTag?_eq_some_iff, tag?_eq_some_iff]
    refine ⟨string?_ofText _ _, fun tag => ?_, fun hplain => ?_⟩
    · rw [← tag?_eq_some_iff, tag?_ofText, htag]
    · cases hcommon : commonTag? vs with
      | none => exact ⟨_, rfl⟩
      | some tag => exact absurd ⟨tag, (htag tag).mp hcommon⟩ hplain

/-- One tag, and then two that differ in case only. Of the operands that are no strings, the first
one is the reason for a failure. -/
theorem concat_of_constants_at :
    let en := [Value.langString "a" "en", .langString "b" "en"]
    let mixed := [Value.langString "a" "en", .langString "b" "en", .langString "c" "EN"]
    let failing := [Value.langString "a" "en", .integer 1, .boolean true]
    (.typeError ∉ en ∧ evaluateConstant (apply .concat (en.map const)) =
      .ok (.langString "ab" "en")) ∧
    (.typeError ∉ mixed ∧ evaluateConstant (apply .concat (mixed.map const)) =
      .ok (.string "abc")) ∧
    .typeError ∉ failing ∧ evaluateConstant (apply .concat (failing.map const)) =
      .error (.invalidOperands "concat" [.integer 1]) := by
  intro en mixed failing
  have hen : .typeError ∉ en := by simp [en]
  have hmixed : .typeError ∉ mixed := by simp [mixed]
  have hfailing : .typeError ∉ failing := by simp [failing]
  refine ⟨⟨hen, ?_⟩, ⟨hmixed, ?_⟩, hfailing, ?_⟩
  · obtain ⟨v, hv⟩ := (concat_of_constants hen).1.mpr (by simp [en])
    obtain ⟨htext, htag, -⟩ := (concat_of_constants hen).2.1 v hv
    obtain ⟨s, rfl⟩ := (htag "en").mpr (by simp [en])
    rw [hv, Option.some.inj htext]
    rfl
  · obtain ⟨v, hv⟩ := (concat_of_constants hmixed).1.mpr (by simp [mixed])
    obtain ⟨htext, -, hplain⟩ := (concat_of_constants hmixed).2.1 v hv
    obtain ⟨s, rfl⟩ := hplain (by simp [mixed])
    rw [hv, Option.some.inj htext]
    rfl
  · exact ((concat_of_constants hfailing).2.2 _).mpr ⟨.integer 1, rfl, rfl⟩

/-! ## Length -/

section

variable {v : Value} {s : String}

theorem Fold.textOf_of_string? (op : Operator) (h : v.string? = some s) : textOf op v = .ok s := by
  rw [textOf, h]

/-- The length of a string is the number of its characters. -/
theorem evaluateConstant_strLen_const (h : v.string? = some s) :
    evaluateConstant (apply .strLen [const v]) = .ok (.integer (Int64.ofNat s.length)) := by
  have hno : .typeError ∉ [v] := by
    rw [List.mem_singleton]
    exact (ne_typeError_of_string? h).symm
  have hlength : Fold.length v = .ok (.integer (Int64.ofNat s.length)) := by
    rw [Fold.length, Fold.textOf_of_string? .strLen h]
    rfl
  exact (evaluateConstant_apply_const hno (Operator.ofCall_name_of_arity rfl)).trans hlength

end

theorem sum_map_ofNat (ns : List Nat) : (ns.map Int64.ofNat).sum = Int64.ofNat ns.sum := by
  induction ns with
  | nil => rfl
  | cons n ns ih => rw [List.map_cons, List.sum_cons, ih, List.sum_cons, Int64.ofNat_add]

/-- Lengths are added without overflow if their sum fits into 64 bits. -/
theorem sum_map_toInt_ofNat {ns : List Nat} (h : ns.sum < 2 ^ 63) :
    ((ns.map Int64.ofNat).map Int64.toInt).sum = ns.sum := by
  induction ns with
  | nil => rfl
  | cons n ns ih =>
    rw [List.sum_cons] at h
    rw [List.map_cons, List.map_cons, List.sum_cons, ih (by omega),
      Int64.toInt_ofNat_of_lt (by omega), List.sum_cons, Int.natCast_add]

theorem length_join_map (vs : List Value) :
    (String.join (vs.map stringText)).length = (vs.map fun w => w.stringText.length).sum := by
  rw [String.length_join, List.map_map]
  rfl

/-! ## Tests on two texts -/

/-- A test succeeds with a truth value, the one that a statement has. -/
def Answers (outcome : Except FoldError Value) (holds : Prop) : Prop :=
  ∃ b, outcome = .ok (.boolean b) ∧ (b = true ↔ holds)

theorem Answers.eq_true {outcome : Except FoldError Value} {holds : Prop}
    (h : Answers outcome holds) (hholds : holds) : outcome = .ok (.boolean true) := by
  obtain ⟨b, hb, hiff⟩ := h
  rw [hb, hiff.mpr hholds]

section

variable {h n : Value} {s t : String} (hs : h.string? = some s) (ht : n.string? = some t)

include hs ht

/-- A test on two strings answers what its relation says of their texts. -/
theorem relation_answers {op : Operator} {P : Prop} (holds : List Char → List Char → Bool)
    (harity : op.arity = some 2) (happly : op.apply [h, n] = Fold.relation op holds h n)
    (hP : holds s.toList t.toList = true ↔ P) :
    Answers (evaluateConstant (apply op [const h, const n])) P := by
  have hno : .typeError ∉ [h, n] := by
    rw [List.mem_pair, not_or]
    exact ⟨(ne_typeError_of_string? hs).symm, (ne_typeError_of_string? ht).symm⟩
  have hvalue : Fold.relation op holds h n = .ok (.boolean (holds s.toList t.toList)) := by
    rw [Fold.relation, Fold.textOf_of_string? op hs, Fold.textOf_of_string? op ht]
    rfl
  have houtcome := evaluateConstant_apply_const hno (Operator.ofCall_name_of_arity harity)
  rw [happly, hvalue] at houtcome
  exact ⟨_, houtcome, hP⟩

theorem strStarts_answers :
    Answers (evaluateConstant (apply .strStarts [const h, const n])) (∃ after, s = t ++ after) := by
  refine relation_answers hs ht (fun s t => t.isPrefixOf s) rfl rfl ?_
  rw [List.isPrefixOf_iff_prefix, Text.prefix_toList_iff]

theorem strEnds_answers :
    Answers (evaluateConstant (apply .strEnds [const h, const n])) (∃ before, s = before ++ t) := by
  refine relation_answers hs ht (fun s t => t.isSuffixOf s) rfl rfl ?_
  rw [List.isSuffixOf_iff_suffix, Text.suffix_toList_iff]

theorem contains_answers :
    Answers (evaluateConstant (apply .contains [const h, const n]))
      (∃ before after, s = before ++ t ++ after) := by
  refine relation_answers hs ht (fun s t => Text.occursIn t s) rfl rfl ?_
  rw [Text.occursIn_iff_infix, Text.infix_toList_iff]

end

/-! ## Strings that were concatenated -/

/-- The text of a concatenation of strings is made of theirs. -/
theorem evaluateConstant_concat_strings {vs : List Value}
    (hvs : ∀ w ∈ vs, w.string?.isSome = true) :
    ∃ v, evaluateConstant (apply .concat (vs.map const)) = .ok v ∧
      v.string? = some (String.join (vs.map stringText)) := by
  have hno : .typeError ∉ vs := by
    intro hmem
    cases hvs _ hmem
  refine ⟨_, ?_, string?_ofText _ (commonTag? vs)⟩
  rw [evaluateConstant_concat_const hno]
  exact Fold.concatenation_eq_ok_iff.mpr ⟨hvs, rfl⟩

/-- The texts before an operand of a concatenation, its own, and those after it. -/
theorem join_map_append_cons (before after : List Value) (w : Value) :
    String.join ((before ++ w :: after).map stringText) =
      String.join (before.map stringText) ++ w.stringText ++
        String.join (after.map stringText) := by
  rw [List.map_append, List.map_cons, String.join_append, String.join_cons, String.append_assoc]

theorem lengths_of_concat {vs : List Value} {v : Value} (hvs : ∀ w ∈ vs, w.string?.isSome = true)
    (hv : v.string? = some (String.join (vs.map stringText))) :
    ∃ lengths : List Int64,
      List.Forall₂ (fun w n => evaluateConstant (apply .strLen [const w]) = .ok (.integer n))
        vs lengths ∧
      evaluateConstant (apply .strLen [const v]) = .ok (.integer lengths.sum) ∧
      (v.stringText.length < 2 ^ 63 → lengths.sum.toInt = (lengths.map Int64.toInt).sum) := by
  refine ⟨(vs.map fun w => w.stringText.length).map Int64.ofNat, ?_, ?_, fun hfits => ?_⟩
  · rw [List.map_map, List.forall₂_map_right_iff, List.forall₂_same]
    exact fun w hw => evaluateConstant_strLen_const (string?_of_isSome (hvs w hw))
  · rw [evaluateConstant_strLen_const hv, length_join_map, sum_map_ofNat]
  · have htext : v.stringText = String.join (vs.map stringText) := by
      rw [stringText, hv, Option.getD_some]
    rw [htext, length_join_map] at hfits
    rw [sum_map_ofNat, sum_map_toInt_ofNat hfits, Int64.toInt_ofNat_of_lt hfits]

/-- **Functions on strings.** The concatenation of one or more strings, with or without a language
tag, has a value. The length of the value is the sum of the lengths of the operands, a sum of 64
bits that is exact if the length of the text fits into them. The value starts with the first
operand, ends with the last one and contains each of them. And a string starts with, ends with or
contains another if and only if its text is the text of that one followed by, preceded by or
surrounded by others. -/
theorem string_functions_agree :
    (∀ (vs : List Value) (hne : vs ≠ []), (∀ w ∈ vs, w.string?.isSome = true) →
      ∃ v, evaluateConstant (apply .concat (vs.map const)) = .ok v ∧
        (∃ lengths : List Int64,
          List.Forall₂ (fun w n => evaluateConstant (apply .strLen [const w]) = .ok (.integer n))
            vs lengths ∧
          evaluateConstant (apply .strLen [const v]) = .ok (.integer lengths.sum) ∧
          (v.stringText.length < 2 ^ 63 →
            lengths.sum.toInt = (lengths.map Int64.toInt).sum)) ∧
        evaluateConstant (apply .strStarts [const v, const (vs.head hne)]) =
          .ok (.boolean true) ∧
        evaluateConstant (apply .strEnds [const v, const (vs.getLast hne)]) =
          .ok (.boolean true) ∧
        ∀ w ∈ vs, evaluateConstant (apply .contains [const v, const w]) = .ok (.boolean true)) ∧
    ∀ (h n : Value) (s t : String), h.string? = some s → n.string? = some t →
      Answers (evaluateConstant (apply .strStarts [const h, const n]))
        (∃ after, s = t ++ after) ∧
      Answers (evaluateConstant (apply .strEnds [const h, const n]))
        (∃ before, s = before ++ t) ∧
      Answers (evaluateConstant (apply .contains [const h, const n]))
        (∃ before after, s = before ++ t ++ after) := by
  constructor
  · intro vs hne hvs
    obtain ⟨v, hvalue, hv⟩ := evaluateConstant_concat_strings hvs
    have htext : ∀ w ∈ vs, w.string? = some w.stringText :=
      fun w hw => string?_of_isSome (hvs w hw)
    refine ⟨v, hvalue, lengths_of_concat hvs hv, ?_, ?_, fun w hw => ?_⟩
    · refine (strStarts_answers hv (htext _ (List.head_mem hne))).eq_true ?_
      refine ⟨String.join (vs.tail.map stringText), ?_⟩
      rw [← String.join_cons, ← List.map_cons, List.cons_head_tail]
    · refine (strEnds_answers hv (htext _ (List.getLast_mem hne))).eq_true ?_
      refine ⟨String.join (vs.dropLast.map stringText), ?_⟩
      conv_lhs => rw [← List.dropLast_append_getLast hne]
      rw [join_map_append_cons, List.map_nil, String.join_nil, String.append_empty]
    · obtain ⟨before, after, rfl⟩ := List.append_of_mem hw
      exact (contains_answers hv (htext w hw)).eq_true ⟨_, _, join_map_append_cons before after w⟩
  · intro h n s t hs ht
    exact ⟨strStarts_answers hs ht, strEnds_answers hs ht, contains_answers hs ht⟩

/-- Characters outside ASCII count once. A needle may be empty, and the one place where `"aab"`
occurs begins inside an attempt that fails. -/
theorem string_functions_agree_at :
    let vs := [Value.langString "é" "fr", .string "", .string "aa", .langString "ab" "en"]
    let v := Value.string "éaaab"
    (vs ≠ [] ∧ ∀ w ∈ vs, w.string?.isSome = true) ∧
      evaluateConstant (apply .concat (vs.map const)) = .ok v ∧
      evaluateConstant (apply .strLen [const v]) = .ok (.integer 5) ∧
      evaluateConstant (apply .strStarts [const v, const (.langString "é" "fr")]) =
        .ok (.boolean true) ∧
      evaluateConstant (apply .strEnds [const v, const (.langString "ab" "en")]) =
        .ok (.boolean true) ∧
      evaluateConstant (apply .contains [const v, const (.string "")]) = .ok (.boolean true) ∧
      evaluateConstant (apply .contains [const v, const (.langString "aab" "en")]) =
        .ok (.boolean true) := by
  intro vs v
  have hvs : ∀ w ∈ vs, w.string?.isSome = true := by simp [vs, Value.string?]
  have hvalue : evaluateConstant (apply .concat (vs.map const)) = .ok v := by decide +kernel
  obtain ⟨v', hv', ⟨lengths, hlengths, hsum, -⟩, hstarts, hends, hcontains⟩ :=
    string_functions_agree.1 vs (by simp [vs]) hvs
  obtain rfl : v = v' := Except.ok.inj (hvalue.symm.trans hv')
  obtain ⟨b, hb, hiff⟩ :=
    (string_functions_agree.2 v (.langString "aab" "en") _ _ rfl rfl).2.2
  refine ⟨⟨by simp [vs], hvs⟩, hvalue, ?_, hstarts, hends, hcontains _ (by simp [vs]), ?_⟩
  · have hone : List.Forall₂ (fun w n => evaluateConstant (apply .strLen [const w]) =
        .ok (.integer n)) vs [1, 0, 2, 2] :=
      .cons rfl (.cons rfl (.cons rfl (.cons rfl .nil)))
    obtain rfl : lengths = [1, 0, 2, 2] := by
      refine List.right_unique_forall₂' (fun w m n hm hn => ?_) hlengths hone
      exact Value.integer.inj (Except.ok.inj (hm.symm.trans hn))
    exact hsum
  · rw [hb, hiff.mpr ⟨"éa", "", rfl⟩]

end Residual
