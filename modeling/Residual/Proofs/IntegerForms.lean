import Residual.Proofs.Numeral
import Residual.Value.Numeric

/-!
# Lexical forms of integers

A text is read as an integer if, but for the white space around it, it is an optional sign and a run
of digits whose number is in the range of 64-bit words. Leading zeros do not matter, nothing else may
stand in the text, and every literal of an integral datatype has its number on the same condition.
An integer is written in one of its own forms.

* `Text.IsTrimmed`, `Text.trim_eq_iff`: a text without the white space at its ends.
* `Decimal.placeValue`, `Decimal.natural_eq_placeValue`: the number of a run of digits.
* `Decimal.WritesInteger`, `Decimal.integer?_eq_some_iff`: the texts that write integers.
* `Lexical.integer?_eq_some_iff`, `Lexical.integer?_ofInteger`: reading, and reading what was written.
* `integers_read_exactly`: the literals that are integers, or have one for their number.
-/

namespace Residual

/-! ## White space -/

namespace Text

/-- The second text is the first one without the white space at its ends. -/
structure IsTrimmed (cs ds : List Char) : Prop where
  surrounded : ∃ before after, cs = before ++ (ds ++ after) ∧
    (∀ c ∈ before, isBlank c = true) ∧ ∀ c ∈ after, isBlank c = true
  head : ∀ c ∈ ds.head?, isBlank c = false
  last : ∀ c ∈ ds.getLast?, isBlank c = false

theorem trimLeft_append {before : List Char} (h : ∀ c ∈ before, isBlank c = true)
    (cs : List Char) : trimLeft (before ++ cs) = trimLeft cs :=
  List.dropWhile_append_of_pos h

theorem trimLeft_of_head {cs : List Char} (h : ∀ c ∈ cs.head?, isBlank c = false) :
    trimLeft cs = cs := by
  cases cs with
  | nil => rfl
  | cons c cs => exact List.dropWhile_cons_of_neg (by simp [h c rfl])

theorem head?_trimLeft (cs : List Char) : ∀ c ∈ (trimLeft cs).head?, isBlank c = false := by
  intro c hc
  have hhead := List.head?_dropWhile_not isBlank cs
  rw [trimLeft] at hc
  rw [hc] at hhead
  simpa using hhead

theorem exists_append_trimLeft (cs : List Char) :
    ∃ before, cs = before ++ trimLeft cs ∧ ∀ c ∈ before, isBlank c = true :=
  ⟨cs.takeWhile isBlank, List.takeWhile_append_dropWhile.symm,
    List.all_eq_true.mp List.all_takeWhile⟩

theorem exists_trimRight_append (cs : List Char) :
    ∃ after, cs = trimRight cs ++ after ∧ ∀ c ∈ after, isBlank c = true := by
  obtain ⟨before, hcs, hblank⟩ := exists_append_trimLeft cs.reverse
  refine ⟨before.reverse, ?_, fun c hc => hblank c (List.mem_reverse.mp hc)⟩
  rw [trimRight, ← List.reverse_append, ← hcs, List.reverse_reverse]

theorem isTrimmed_trim (cs : List Char) : IsTrimmed cs (trim cs) := by
  obtain ⟨before, hleft, hbefore⟩ := exists_append_trimLeft cs
  obtain ⟨after, hright, hafter⟩ := exists_trimRight_append (trimLeft cs)
  refine ⟨⟨before, after, ?_, hbefore, hafter⟩, fun c hc => ?_, ?_⟩
  · rw [trim, ← hright, ← hleft]
  · -- the text begins as it did before its end was trimmed
    have hc' : (trimRight (trimLeft cs)).head? = some c := hc
    refine head?_trimLeft cs c ?_
    rw [hright, List.head?_append, hc']
    rfl
  · rw [trim, trimRight, List.getLast?_reverse]
    exact head?_trimLeft _

theorem trim_eq_iff {cs ds : List Char} : trim cs = ds ↔ IsTrimmed cs ds := by
  constructor
  · rintro rfl
    exact isTrimmed_trim cs
  · rintro ⟨⟨before, after, rfl, hbefore, hafter⟩, hhead, hlast⟩
    rw [trim, trimLeft_append hbefore]
    cases ds with
    | nil =>
      have hnil := trimLeft_append hafter []
      rw [List.append_nil] at hnil
      rw [List.nil_append, hnil]
      rfl
    | cons c ds =>
      have hhead' : ∀ d ∈ (c :: ds ++ after).head?, isBlank d = false := hhead
      rw [trimLeft_of_head hhead', trimRight, List.reverse_append,
        trimLeft_append fun c hc => hafter c (List.mem_reverse.mp hc),
        trimLeft_of_head (by rwa [List.head?_reverse]), List.reverse_reverse]

/-- A text without any white space is left as it is. -/
theorem trim_eq_self {cs : List Char} (h : ∀ c ∈ cs, isBlank c = false) : trim cs = cs :=
  trim_eq_iff.mpr ⟨⟨[], [], by simp, nofun, nofun⟩, fun c hc => h c (List.mem_of_mem_head? hc),
    fun c hc => h c (List.mem_of_mem_getLast? hc)⟩

end Text

/-! ## Texts that write integers -/

namespace Decimal

/-- The number of a run of digits, in which every digit counts by its place. -/
def placeValue : List Char → Nat
  | [] => 0
  | c :: cs => digitValue c * 10 ^ cs.length + placeValue cs

theorem natural_eq_placeValue (ds : List Char) : natural ds = placeValue ds := by
  induction ds with
  | nil => rfl
  | cons c cs ih => rw [natural_cons, ih, placeValue]

/-- The text is an optional sign and one or more digits, and the integer is their number. -/
inductive WritesInteger : List Char → Int → Prop
  | unsigned {ds : List Char} (hne : ds ≠ []) (hds : IsDigits ds) :
    WritesInteger ds (placeValue ds)
  | plus {ds : List Char} (hne : ds ≠ []) (hds : IsDigits ds) :
    WritesInteger ('+' :: ds) (placeValue ds)
  | minus {ds : List Char} (hne : ds ≠ []) (hds : IsDigits ds) :
    WritesInteger ('-' :: ds) (-placeValue ds)

theorem natural?_eq_some_iff {cs : List Char} {n : Nat} :
    natural? cs = some n ↔ cs ≠ [] ∧ IsDigits cs ∧ n = placeValue cs := by
  have hdigits : cs.all Char.isDigit = true ↔ IsDigits cs := List.all_eq_true
  rw [natural?, natural_eq_placeValue, Option.ite_none_right_eq_some, Option.some.injEq, hdigits,
    and_assoc, eq_comm]

theorem WritesInteger.integer?_eq {cs : List Char} {z : Int} (h : WritesInteger cs z) :
    integer? cs = some z := by
  cases h with
  | unsigned hne hds =>
    have hnatural := natural?_eq_some_iff.mpr ⟨hne, hds, rfl⟩
    unfold integer?
    split
    · exact absurd rfl (Numeral.ne_sign_of_isDigit (hds _ List.mem_cons_self)).1
    · exact absurd rfl (Numeral.ne_sign_of_isDigit (hds _ List.mem_cons_self)).2
    · rw [hnatural]
      rfl
  | plus hne hds =>
    rw [integer?, natural?_eq_some_iff.mpr ⟨hne, hds, rfl⟩]
    rfl
  | minus hne hds =>
    rw [integer?, natural?_eq_some_iff.mpr ⟨hne, hds, rfl⟩]
    rfl

theorem integer?_eq_some_iff {cs : List Char} {z : Int} :
    integer? cs = some z ↔ WritesInteger cs z := by
  refine ⟨fun h => ?_, WritesInteger.integer?_eq⟩
  unfold integer? at h
  split at h
  all_goals
    obtain ⟨n, hn, rfl⟩ := Option.map_eq_some_iff.mp h
    obtain ⟨hne, hds, rfl⟩ := natural?_eq_some_iff.mp hn
  · exact .plus hne hds
  · exact .minus hne hds
  · exact .unsigned hne hds

theorem writesInteger_integerText (z : Int) : WritesInteger (integerText z) z := by
  cases z with
  | ofNat n =>
    have hvalue : placeValue (digits n) = n := by rw [← natural_eq_placeValue, natural_digits]
    have h := WritesInteger.unsigned (digits_ne_nil n) (isDigits_digits n)
    rwa [hvalue] at h
  | negSucc n =>
    have hvalue : placeValue (digits (n + 1)) = n + 1 := by
      rw [← natural_eq_placeValue, natural_digits]
    have h := WritesInteger.minus (digits_ne_nil (n + 1)) (isDigits_digits (n + 1))
    rwa [hvalue] at h

theorem isBlank_of_isDigit {c : Char} (h : c.isDigit = true) : Text.isBlank c = false := by
  have hrange := toNat_of_isDigit h
  simp only [Text.isBlank, Text.inRanges, Text.blankRanges, List.any_cons, List.any_nil,
    Bool.or_false, Bool.or_eq_false_iff, Bool.and_eq_false_iff, decide_eq_false_iff_not]
  omega

theorem WritesInteger.isBlank_eq_false {cs : List Char} {z : Int} (h : WritesInteger cs z) :
    ∀ c ∈ cs, Text.isBlank c = false := by
  have hdigits : ∀ ds, IsDigits ds → ∀ c ∈ ds, Text.isBlank c = false :=
    fun ds hds c hc => isBlank_of_isDigit (hds c hc)
  cases h with
  | unsigned _ hds => exact hdigits _ hds
  | plus _ hds => exact List.forall_mem_cons.mpr ⟨by decide, hdigits _ hds⟩
  | minus _ hds => exact List.forall_mem_cons.mpr ⟨by decide, hdigits _ hds⟩

end Decimal

open Decimal

/-! ## Reading and writing -/

namespace Lexical

/-- The text writes the integer, with or without white space around it. -/
def IsIntegerForm (s : String) (z : Int) : Prop :=
  ∃ cs, Text.IsTrimmed s.toList cs ∧ WritesInteger cs z

theorem integer?_eq_some_iff {s : String} {n : Int64} :
    integer? s = some n ↔ IsIntegerForm s n.toInt := by
  simp only [integer?, int64?, Option.bind_eq_some_iff, inInt64?_eq_some_iff,
    Decimal.integer?_eq_some_iff, IsIntegerForm, ← Text.trim_eq_iff]
  constructor
  · rintro ⟨z, hz, rfl⟩
    exact ⟨_, rfl, hz⟩
  · rintro ⟨_, rfl, hz⟩
    exact ⟨_, hz, rfl⟩

/-- An integer is read from what is written for it. -/
theorem integer?_ofInteger (n : Int64) : integer? (ofInteger n) = some n := by
  have hwrites := writesInteger_integerText n.toInt
  refine integer?_eq_some_iff.mpr ⟨integerText n.toInt, Text.trim_eq_iff.mp ?_, hwrites⟩
  rw [ofInteger, String.toList_ofList, Text.trim_eq_self hwrites.isBlank_eq_false]

end Lexical

open Lexical

theorem Value.ofLexical_integer (s : String) :
    ofLexical s Xsd.integer = ((Lexical.integer? s).map integer).getD (typed s Xsd.integer) := by
  rw [ofLexical, native?, if_neg (by decide), if_neg (by decide), if_pos rfl]

/-- **Integers.** A literal is the integer `n` if and only if its text, but for white space around it,
is an optional sign and one or more digits that write `n`; any other literal keeps its text. The
literals of all integral datatypes have an integer for their number on the same condition, and the
text written for an integer is read as this integer. -/
theorem integers_read_exactly (s : String) :
    (∀ n : Int64, Value.ofLexical s Xsd.integer = .integer n ↔ IsIntegerForm s n.toInt) ∧
      ((¬ ∃ n : Int64, IsIntegerForm s n.toInt) →
        Value.ofLexical s Xsd.integer = .typed s Xsd.integer) ∧
      (∀ name ∈ [Xsd.int, Xsd.long, Xsd.short, Xsd.integer], ∀ n : Int64,
        (Value.typed s name).numeric? = some (.integer n) ↔ IsIntegerForm s n.toInt) ∧
      ∀ n : Int64, Value.ofLexical (Value.integer n).lexicalForm Xsd.integer = .integer n := by
  simp only [Value.ofLexical_integer, ← Lexical.integer?_eq_some_iff]
  refine ⟨fun n => ?_, fun hno => ?_, fun name hname n => ?_, fun n => ?_⟩
  · cases Lexical.integer? s <;> simp
  · rw [Option.eq_none_iff_forall_ne_some.mpr fun n hn => hno ⟨n, hn⟩]
    rfl
  · rw [Value.numeric?, Xsd.integral, if_pos hname]
    cases Lexical.integer? s <;> simp
  · rw [Value.lexicalForm, integer?_ofInteger]
    rfl

/-- A padded number with a sign, and the number one past the largest. -/
theorem integers_read_exactly_at :
    Value.ofLexical "\u00a0+007 " Xsd.integer = .integer 7 ∧
      (Value.typed "\u00a0+007 " Xsd.short).numeric? = some (.integer 7) ∧
      Value.ofLexical "9223372036854775808" Xsd.integer =
        .typed "9223372036854775808" Xsd.integer := by
  have hform : IsIntegerForm "\u00a0+007 " (7 : Int64).toInt :=
    ⟨['+', '0', '0', '7'], Text.trim_eq_iff.mp (by decide),
      @WritesInteger.plus ['0', '0', '7'] (by decide) (by decide)⟩
  have hlarge : ¬ ∃ n : Int64, IsIntegerForm "9223372036854775808" n.toInt := by
    rintro ⟨n, hn⟩
    have hnone : Lexical.integer? "9223372036854775808" = none := by decide
    rw [Lexical.integer?_eq_some_iff.mpr hn] at hnone
    cases hnone
  exact ⟨((integers_read_exactly _).1 7).mpr hform,
    ((integers_read_exactly _).2.2.1 Xsd.short (by decide) 7).mpr hform,
    (integers_read_exactly _).2.1 hlarge⟩

end Residual
