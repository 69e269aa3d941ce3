import Residual.Proofs.Coherence

/-!
# The comparisons as equality and order

Doubles apart, a value is compared by a key: literals of all integral datatypes by their integer,
strings, truth values and IRIs by what they are, and a literal without a number by its text and
datatype. Two values are equal if and only if they have the same key, and their order is that of
the keys. So equality is an equivalence, and the order is a strict one that respects it.

* `Value.HasKey`, `Value.exists_hasKey`, `Value.HasKey.isExact`: the values that have a key.
* `Value.equal?_iff_key`, `Value.order?_of_key`: comparison by keys.
* `Value.Key.order?_swap`, `Value.Key.order?_trans`: the order of keys.
* `SameOutcome`: comparisons that come out alike.
* `comparisons_lawful`: the laws of `=` and `<` as operators.
-/

namespace Residual

open Residual.Expr

/-! ## Language tags -/

theorem Text.equalIgnoringAsciiCase_comm (s t : String) :
    equalIgnoringAsciiCase s t = equalIgnoringAsciiCase t s := BEq.comm

theorem Text.equalIgnoringAsciiCase_trans {s t u : String}
    (h : equalIgnoringAsciiCase s t = true) (h' : equalIgnoringAsciiCase t u = true) :
    equalIgnoringAsciiCase s u = true := by
  rw [equalIgnoringAsciiCase, beq_iff_eq] at h h' ⊢
  exact h.trans h'

namespace Value

/-! ## Keys -/

/-- What a value is compared by. -/
inductive Key where
  | number (n : Int64)
  | truth (b : Bool)
  | text (s : String)
  | tagged (s tag : String)
  | name (iri : String)
  /-- A literal that has no number. -/
  | spelling (lexical datatype : String)

/-- The key of a value. Doubles have none, and neither has the type error. -/
inductive HasKey : Value → Key → Prop
  | integer (n : Int64) : HasKey (integer n) (.number n)
  | integral {lexical datatype : String} {n : Int64}
    (h : (typed lexical datatype).numeric? = some (.integer n)) :
    HasKey (typed lexical datatype) (.number n)
  | boolean (b : Bool) : HasKey (boolean b) (.truth b)
  | string (s : String) : HasKey (string s) (.text s)
  | langString (s tag : String) : HasKey (langString s tag) (.tagged s tag)
  | iri (name : String) : HasKey (iri name) (.name name)
  | typed {lexical datatype : String} (h : (typed lexical datatype).numeric? = none) :
    HasKey (typed lexical datatype) (.spelling lexical datatype)

/-- A value other than the type error, whose number is not a double if it has one. -/
structure IsExact (v : Value) : Prop where
  ne_typeError : v ≠ typeError
  noDouble : ∀ d, v.numeric? ≠ some (.double d)

theorem exists_hasKey {v : Value} (hv : v.IsExact) : ∃ k, v.HasKey k := by
  cases v with
  | boolean b => exact ⟨_, .boolean b⟩
  | integer n => exact ⟨_, .integer n⟩
  | double d => exact absurd rfl (hv.noDouble d)
  | string s => exact ⟨_, .string s⟩
  | langString s tag => exact ⟨_, .langString s tag⟩
  | typed lexical datatype =>
    cases hnumber : (typed lexical datatype).numeric? with
    | none => exact ⟨_, .typed hnumber⟩
    | some m =>
      cases m with
      | integer n => exact ⟨_, .integral hnumber⟩
      | double d => exact absurd hnumber (hv.noDouble d)
  | iri name => exact ⟨_, .iri name⟩
  | typeError => exact absurd rfl hv.ne_typeError

namespace Key

/-- The number among the keys. -/
def numeric? : Key → Option Numeric
  | number n => some (.integer n)
  | _ => none

/-- The order of two keys, if they are of one kind and this kind has an order. -/
def order? : Key → Key → Option Ordering
  | number m, number n => some (compare m.toInt n.toInt)
  | truth a, truth b => some (compare a b)
  | text s, text t => some (compare s t)
  | tagged s tag, tagged t tag' =>
    if Text.equalIgnoringAsciiCase tag tag' then some (compare s t) else none
  | _, _ => none

theorem order?_self_ne_lt (k : Key) : k.order? k ≠ some .lt := by
  cases k <;> simp [order?, Std.ReflCmp.compare_self]

theorem order?_swap (k k' : Key) : k'.order? k = (k.order? k').map Ordering.swap := by
  cases k <;> cases k' <;> try rfl
  case tagged.tagged =>
    rw [order?, order?, Text.equalIgnoringAsciiCase_comm]
    split
    · exact congrArg some Std.OrientedCmp.eq_swap
    · rfl
  all_goals exact congrArg some Std.OrientedCmp.eq_swap

theorem order?_trans {k k' k'' : Key} (h : k.order? k' = some .lt)
    (h' : k'.order? k'' = some .lt) : k.order? k'' = some .lt := by
  -- keys of two kinds have no order, so that all three are of one kind
  cases k <;> cases k' <;> try cases h
  all_goals cases k'' <;> try cases h'
  case tagged.tagged.tagged =>
    simp only [order?, Option.ite_none_right_eq_some, Option.some.injEq] at h h' ⊢
    exact ⟨Text.equalIgnoringAsciiCase_trans h.1 h'.1, Std.TransCmp.lt_trans h.2 h'.2⟩
  all_goals
    exact congrArg some (Std.TransCmp.lt_trans (Option.some.inj h) (Option.some.inj h'))

end Key

/-! ## Comparison by keys -/

section

variable {l r : Value} {k k' : Key}

theorem HasKey.numeric?_eq (h : l.HasKey k) : l.numeric? = k.numeric? := by
  cases h with
  | integral h => exact h
  | typed h => exact h
  | _ => rfl

theorem HasKey.isExact (h : l.HasKey k) : l.IsExact := by
  refine ⟨?_, fun d hd => ?_⟩
  · rintro rfl
    cases h
  · rw [h.numeric?_eq] at hd
    cases k <;> cases hd

theorem order?_of_key (hl : l.HasKey k) (hr : r.HasKey k') : l.order? r = k.order? k' := by
  unfold order?
  rw [hl.numeric?_eq, hr.numeric?_eq]
  cases hl <;> cases hr <;> rfl

/-- Two literals of one datatype, of which only one has a number, differ in their texts. -/
theorem lexical_ne_of_numeric? {s t d d' : String} {m : Numeric}
    (hs : (typed s d).numeric? = some m) (ht : (typed t d').numeric? = none) (hd : d = d') :
    s ≠ t := by
  rintro rfl
  subst hd
  rw [hs] at ht
  cases ht

theorem equal?_iff_key (hl : l.HasKey k) (hr : r.HasKey k') :
    l.equal? r = some true ↔ k = k' := by
  unfold equal?
  rw [hl.numeric?_eq, hr.numeric?_eq]
  cases hl <;> cases hr <;> simp [Key.numeric?, Numeric.equal]
  case integral.typed h _ _ h' => exact lexical_ne_of_numeric? h h'
  case typed.integral h _ _ _ h' => exact fun hd => (lexical_ne_of_numeric? h' h hd.symm).symm
  case typed.typed => exact and_comm

theorem equal?_comm (hl : l.HasKey k) (hr : r.HasKey k') : l.equal? r = r.equal? l := by
  unfold equal?
  rw [hl.numeric?_eq, hr.numeric?_eq]
  cases hl <;> cases hr <;> simp [Key.numeric?, Numeric.equal, BEq.comm, eq_comm]

end

end Value

/-! ## The operators -/

/-- A comparison of two values comes out true. -/
def Holds (op : Operator) (l r : Value) : Prop := outcome op l r = .ok (.boolean true)

/-- Two comparisons come out with the same truth value, or both fail to compare. -/
def SameOutcome (x y : Except FoldError Value) : Prop :=
  (∃ t, x = .ok (.boolean t) ∧ y = .ok (.boolean t)) ∨
    ∃ l r l' r', x = .error (.notComparable l r) ∧ y = .error (.notComparable l' r')

section

variable {l r l' r' : Value}

theorem Fold.equality_eq_true_iff {test : Bool → Bool} :
    Fold.equality test l r = .ok (.boolean true) ↔ (l.equal? r).map test = some true := by
  unfold Fold.equality
  cases l.equal? r <;> simp

theorem Fold.ordering_eq_true_iff {test : Ordering → Bool} :
    Fold.ordering test l r = .ok (.boolean true) ↔ (l.order? r).map test = some true := by
  unfold Fold.ordering
  cases l.order? r <;> simp

theorem sameOutcome_equality {test : Bool → Bool} (h : l.equal? r = l'.equal? r') :
    SameOutcome (Fold.equality test l r) (Fold.equality test l' r') := by
  unfold Fold.equality
  rw [h]
  cases l'.equal? r' with
  | none => exact Or.inr ⟨l, r, l', r', rfl, rfl⟩
  | some t => exact Or.inl ⟨test t, rfl, rfl⟩

theorem sameOutcome_ordering {test test' : Ordering → Bool}
    (h : (l.order? r).map test = (l'.order? r').map test') :
    SameOutcome (Fold.ordering test l r) (Fold.ordering test' l' r') := by
  unfold Fold.ordering
  cases ho : l.order? r <;> cases ho' : l'.order? r' <;> rw [ho, ho'] at h
  case none.none => exact Or.inr ⟨l, r, l', r', rfl, rfl⟩
  case none.some => cases h
  case some.none => cases h
  case some.some => exact Or.inl ⟨_, rfl, by rw [Option.some.inj h]⟩

variable (hl : l ≠ .typeError) (hr : r ≠ .typeError)

include hl hr

theorem holds_eq_iff : Holds .eq l r ↔ l.equal? r = some true := by
  rw [Holds, outcome_equality hl hr, Fold.equality_eq_true_iff, Option.map_id, id]

theorem holds_lt_iff : Holds .lt l r ↔ l.order? r = some .lt := by
  rw [Holds, (outcome_ordering hl hr).1, Fold.ordering_eq_true_iff]
  cases l.order? r with
  | none => simp
  | some o => cases o <;> simp

end

/-- The laws of equality and order for three values. -/
structure ComparisonLaws (a b c : Value) : Prop where
  eq_refl : Holds .eq a a
  eq_symm : Holds .eq a b → Holds .eq b a
  eq_trans : Holds .eq a b → Holds .eq b c → Holds .eq a c
  eq_comm : SameOutcome (outcome .eq a b) (outcome .eq b a)
  lt_irrefl : ¬ Holds .lt a a
  lt_trans : Holds .lt a b → Holds .lt b c → Holds .lt a c
  lt_swap : SameOutcome (outcome .lt a b) (outcome .gt b a)
  lt_congr : Holds .eq a b → SameOutcome (outcome .lt a c) (outcome .lt b c)

/-- **Order laws.** For values that are neither doubles nor the type error, `=` is reflexive,
symmetric and transitive, and has the same outcome for both orders of its operands; `<` is
irreflexive and transitive, has the outcome of `>` with the operands exchanged, and the same outcome
for equal values in its first operand. -/
theorem comparisons_lawful {a b c : Value} (ha : a.IsExact) (hb : b.IsExact) (hc : c.IsExact) :
    ComparisonLaws a b c := by
  obtain ⟨k, hk⟩ := Value.exists_hasKey ha
  obtain ⟨k', hk'⟩ := Value.exists_hasKey hb
  obtain ⟨k'', hk''⟩ := Value.exists_hasKey hc
  have na := ha.ne_typeError
  have nb := hb.ne_typeError
  have nc := hc.ne_typeError
  refine ⟨?_, fun h => ?_, fun h h' => ?_, ?_, fun h => ?_, fun h h' => ?_, ?_, fun h => ?_⟩
  · rw [holds_eq_iff na na, Value.equal?_iff_key hk hk]
  · rw [holds_eq_iff na nb, Value.equal?_iff_key hk hk'] at h
    rw [holds_eq_iff nb na, Value.equal?_iff_key hk' hk, h]
  · rw [holds_eq_iff na nb, Value.equal?_iff_key hk hk'] at h
    rw [holds_eq_iff nb nc, Value.equal?_iff_key hk' hk''] at h'
    rw [holds_eq_iff na nc, Value.equal?_iff_key hk hk'', h, h']
  · rw [outcome_equality na nb, outcome_equality nb na]
    exact sameOutcome_equality (Value.equal?_comm hk hk')
  · rw [holds_lt_iff na na, Value.order?_of_key hk hk] at h
    exact k.order?_self_ne_lt h
  · rw [holds_lt_iff na nb, Value.order?_of_key hk hk'] at h
    rw [holds_lt_iff nb nc, Value.order?_of_key hk' hk''] at h'
    rw [holds_lt_iff na nc, Value.order?_of_key hk hk'']
    exact Value.Key.order?_trans h h'
  · rw [(outcome_ordering na nb).1, (outcome_ordering nb na).2.2.1]
    refine sameOutcome_ordering ?_
    rw [Value.order?_of_key hk hk', Value.order?_of_key hk' hk, Value.Key.order?_swap k k']
    cases k.order? k' with
    | none => rfl
    | some o => cases o <;> rfl
  · rw [holds_eq_iff na nb, Value.equal?_iff_key hk hk'] at h
    rw [(outcome_ordering na nc).1, (outcome_ordering nb nc).1]
    refine sameOutcome_ordering ?_
    rw [Value.order?_of_key hk hk'', Value.order?_of_key hk' hk'', h]

/-- A padded literal of an integral datatype, the same integer and the next one of another such
datatype; strings whose tags differ in the case of letters. -/
theorem comparisons_lawful_at :
    let m : Value := .typed " 07 " Xsd.int
    let n : Value := .integer 7
    let o : Value := .typed "+8" Xsd.long
    let s : Value := .langString "a" "en"
    let t : Value := .langString "ab" "EN"
    let u : Value := .langString "b" "En"
    m.IsExact ∧ n.IsExact ∧ o.IsExact ∧ s.IsExact ∧ t.IsExact ∧ u.IsExact ∧
      SameOutcome (outcome .lt m o) (outcome .lt n o) ∧ Holds .eq n m ∧ Holds .lt s u := by
  intro m n o s t u
  have hm : m.IsExact := Value.HasKey.isExact (.integral rfl)
  have hn : n.IsExact := Value.HasKey.isExact (.integer 7)
  have ho : o.IsExact := Value.HasKey.isExact (.integral rfl)
  have hs : s.IsExact := Value.HasKey.isExact (.langString "a" "en")
  have ht : t.IsExact := Value.HasKey.isExact (.langString "ab" "EN")
  have hu : u.IsExact := Value.HasKey.isExact (.langString "b" "En")
  have hnumbers := comparisons_lawful hm hn ho
  have hstrings := comparisons_lawful hs ht hu
  exact ⟨hm, hn, ho, hs, ht, hu, hnumbers.lt_congr rfl, hnumbers.eq_symm rfl,
    hstrings.lt_trans rfl rfl⟩

end Residual
