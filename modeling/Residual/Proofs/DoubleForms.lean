import Mathlib.Tactic.SplitIfs
import Residual.Proofs.IntegerForms

/-!
# Lexical forms of doubles

But for the white space around it, a lexical form of a double is a numeral with a digit before its
power of ten, or one of `INF`, `+INF`, `-INF` and `NaN`. All of them are read as doubles. The reader
takes the special names in any case of letters, knows a longer name of infinity and puts a sign
before any of them. So it reads some texts more, which are no lexical forms; no other text is read.

* `Lexical.WritesDouble`, `Lexical.double?_eq_some_iff`: the texts that are read, and as what.
* `Lexical.DoubleForm`, `Lexical.LooseName`: lexical forms, and the other names of special doubles.
* `Lexical.exists_writesDouble_iff`, `Lexical.LooseName.not_doubleForm`: every text that is read is
  of one of these kinds, and none is of both.
* `doubles_are_forms_iff`: the literals that are doubles are those of the lexical forms, but for the
  other names.
-/

namespace Residual

open Residual.Decimal

/-! ## Numerals with digits -/

namespace Decimal.Numeral

theorem toLower_of_isDigit {c : Char} (h : c.isDigit = true) : c.toLower = c := by
  have hrange := toNat_of_isDigit h
  refine dif_neg fun hupper => ?_
  have hA : 65 ≤ c.toNat := UInt32.le_iff_toNat_le.mp hupper.1
  omega

/-- After its sign, a numeral with some digits begins with a digit or with the point, and so not as
a special name does. -/
theorem Writes.takeSign_head {cs : List Char} {n : Numeral} (h : Writes cs n)
    (hne : n.significant ≠ []) :
    ∃ c rest, takeSign cs = (n.sign, c :: rest) ∧ c.toLower ∉ ['i', 'n'] := by
  obtain ⟨sign, hwhole, hfraction, hexponent⟩ := h
  rw [takeSign_append sign (head?_unsigned hwhole hexponent)]
  rename_i whole fraction cs exponent
  cases whole with
  | cons c ds =>
    have hc := hwhole c List.mem_cons_self
    refine ⟨c, _, rfl, fun hmem => ?_⟩
    rw [toLower_of_isDigit hc, List.mem_cons, List.mem_singleton] at hmem
    rcases hmem with rfl | rfl <;> cases hc
  | nil =>
    cases fraction with
    | some ds => exact ⟨'.', _, rfl, by decide⟩
    | none => exact absurd rfl hne

end Decimal.Numeral

namespace Lexical

/-! ## Special names -/

/-- The names of infinity and of the value that is no number, in lower case. -/
def specialNames : List (List Char) :=
  [['i', 'n', 'f'], ['i', 'n', 'f', 'i', 'n', 'i', 't', 'y'], ['n', 'a', 'n']]

theorem exists_special?_iff {word : List Char} :
    (∃ d, special? word = some d) ↔ word ∈ specialNames := by
  unfold special?
  split_ifs with hinf hnan <;> simp [specialNames, ← or_assoc, *]

theorem isFinite_of_special? {word : List Char} {d : Float} (h : special? word = some d) :
    d.isFinite = false ∧ (-d).isFinite = false := by
  unfold special? at h
  split_ifs at h <;> cases h <;> decide +kernel

theorem special?_head {word : List Char} {d : Float}
    (h : special? (word.map Char.toLower) = some d) :
    ∃ c rest, word = c :: rest ∧ c.toLower ∈ ['i', 'n'] := by
  have hname := exists_special?_iff.mp ⟨d, h⟩
  have hhead : ∀ name ∈ specialNames, name.head? = some 'i' ∨ name.head? = some 'n' := by decide
  cases word with
  | nil => exact absurd hname (by decide)
  | cons c rest =>
    have hc : some c.toLower = some 'i' ∨ some c.toLower = some 'n' := hhead _ hname
    exact ⟨c, rest, rfl, by simpa using hc⟩

/-- A special name begins as no numeral does. -/
theorem special?_eq_none {c : Char} (hc : c.toLower ∉ ['i', 'n']) (rest : List Char) :
    special? ((c :: rest).map Char.toLower) = none := by
  refine Option.eq_none_iff_forall_ne_some.mpr fun d hd => ?_
  obtain ⟨_, _, heq, hc'⟩ := special?_head hd
  cases heq
  exact hc hc'

theorem takeSign_special {word : List Char} {d : Float} (sign : Option Sign)
    (h : special? (word.map Char.toLower) = some d) :
    Numeral.takeSign ((sign.map Sign.char).toList ++ word) = (sign, word) := by
  obtain ⟨c, rest, rfl, hc⟩ := special?_head h
  refine Numeral.takeSign_append sign fun c' hc' => ?_
  cases hc'
  constructor
  · rintro rfl
    exact absurd hc (by decide)
  · rintro rfl
    exact absurd hc (by decide)

/-! ## Texts that are read as doubles -/

/-- The text is read as the double: it is an optional sign and a special name in any case of
letters, or a numeral with some digits. -/
inductive WritesDouble : List Char → Float → Prop
  | special (sign : Option Sign) {word : List Char} {d : Float}
    (h : special? (word.map Char.toLower) = some d) :
    WritesDouble ((sign.map Sign.char).toList ++ word) (if sign = some .minus then -d else d)
  | numeral {cs : List Char} {n : Numeral} (h : Numeral.Writes cs n) (hne : n.significant ≠ []) :
    WritesDouble cs n.toFloat

theorem double?_eq_some_iff {s : String} {d : Float} :
    double? s = some d ↔ WritesDouble (Text.trim s.toList) d := by
  unfold double?
  generalize Text.trim s.toList = cs
  dsimp only
  constructor
  · intro h
    split at h
    · rename_i e he
      cases h
      have hwrites := WritesDouble.special (Numeral.takeSign cs).1 he
      rwa [← Numeral.takeSign_eq] at hwrites
    · split at h
      · rename_i n hn
        obtain ⟨hne, hd⟩ := Option.ite_none_left_eq_some.mp h
        cases hd
        exact .numeral (Numeral.read?_eq_some_iff.mp hn) hne
      · cases h
  · rintro (⟨sign, hspecial⟩ | ⟨hwrites, hne⟩)
    · rw [takeSign_special sign hspecial]
      dsimp only
      rw [hspecial]
    · obtain ⟨c, rest, htake, hc⟩ := hwrites.takeSign_head hne
      rw [htake]
      dsimp only
      rw [special?_eq_none hc, Numeral.read?_eq_some_iff.mpr hwrites]
      exact if_neg hne

/-! ## Lexical forms and other names -/

/-- A lexical form of a double: a numeral with some digits, infinity with or without a sign, or the
value that is no number. -/
inductive DoubleForm : List Char → Prop
  | numeral {cs : List Char} {n : Numeral} (h : Numeral.Writes cs n) (hne : n.significant ≠ []) :
    DoubleForm cs
  | infinity (sign : Option Sign) : DoubleForm ((sign.map Sign.char).toList ++ ['I', 'N', 'F'])
  | notANumber : DoubleForm ['N', 'a', 'N']

/-- A special name, with or without a sign, that is no lexical form: `inf` or `nan` with other
letters in capitals, `infinity`, or `NaN` with a sign. -/
def LooseName (cs : List Char) : Prop :=
  ∃ (sign : Option Sign) (word : List Char), cs = (sign.map Sign.char).toList ++ word ∧
    word.map Char.toLower ∈ specialNames ∧ word ≠ ['I', 'N', 'F'] ∧
    (sign = none → word ≠ ['N', 'a', 'N'])

theorem exists_writesDouble_iff {cs : List Char} :
    (∃ d, WritesDouble cs d) ↔ DoubleForm cs ∨ LooseName cs := by
  constructor
  · rintro ⟨_, ⟨sign, hspecial⟩ | ⟨hwrites, hne⟩⟩
    · rename_i word d
      by_cases hinf : word = ['I', 'N', 'F']
      · rw [hinf]
        exact Or.inl (.infinity sign)
      · by_cases hnan : sign = none → word ≠ ['N', 'a', 'N']
        · exact Or.inr ⟨sign, word, rfl, exists_special?_iff.mp ⟨d, hspecial⟩, hinf, hnan⟩
        · obtain ⟨rfl, hword⟩ := Classical.not_imp.mp hnan
          rw [Classical.not_not.mp hword]
          exact Or.inl .notANumber
    · exact Or.inl (.numeral hwrites hne)
  · rintro ((⟨hwrites, hne⟩ | sign | _) | ⟨sign, word, rfl, hname, -, -⟩)
    · exact ⟨_, .numeral hwrites hne⟩
    · exact ⟨_, .special sign rfl⟩
    · exact ⟨_, @WritesDouble.special none ['N', 'a', 'N'] _ rfl⟩
    · obtain ⟨d, hd⟩ := exists_special?_iff.mpr hname
      exact ⟨_, .special sign hd⟩

theorem LooseName.not_doubleForm {cs : List Char} (h : LooseName cs) : ¬ DoubleForm cs := by
  obtain ⟨sign, word, hcs, hname, hinf, hnan⟩ := h
  obtain ⟨d, hd⟩ := exists_special?_iff.mpr hname
  -- what is left after the sign tells the texts apart
  have htake := takeSign_special sign hd
  rw [← hcs] at htake
  intro hform
  cases hform with
  | numeral hwrites hne =>
    obtain ⟨c, rest, htake', hc⟩ := hwrites.takeSign_head hne
    cases htake.symm.trans htake'
    rw [special?_eq_none hc] at hd
    cases hd
  | infinity sign' =>
    cases htake.symm.trans (takeSign_special sign' rfl)
    exact hinf rfl
  | notANumber =>
    cases htake.symm.trans (@takeSign_special ['N', 'a', 'N'] _ none rfl)
    exact hnan rfl rfl

/-- The text is a lexical form of a double, with or without white space around it. -/
def IsDoubleForm (s : String) : Prop := ∃ cs, Text.IsTrimmed s.toList cs ∧ DoubleForm cs

/-- The text is some other name of a special double, with or without white space around it. -/
def HasLooseName (s : String) : Prop := ∃ cs, Text.IsTrimmed s.toList cs ∧ LooseName cs

theorem isDoubleForm_iff {s : String} : IsDoubleForm s ↔ DoubleForm (Text.trim s.toList) := by
  simp [IsDoubleForm, ← Text.trim_eq_iff]

theorem hasLooseName_iff {s : String} : HasLooseName s ↔ LooseName (Text.trim s.toList) := by
  simp [HasLooseName, ← Text.trim_eq_iff]

theorem exists_double?_iff {s : String} :
    (∃ d, double? s = some d) ↔ IsDoubleForm s ∨ HasLooseName s := by
  simp only [double?_eq_some_iff, isDoubleForm_iff, hasLooseName_iff, exists_writesDouble_iff]

end Lexical

open Lexical

/-! ## Literals -/

theorem Value.ofLexical_double (s : String) :
    ofLexical s Xsd.double = ((Lexical.double? s).map double).getD (typed s Xsd.double) := by
  rw [ofLexical, native?, if_neg (by decide), if_neg (by decide), if_neg (by decide), if_pos rfl]

/-- The literal with this text is a double just if the text is a lexical form, and keeps its text
if it is not. -/
def DoublesAreForms (s : String) : Prop :=
  ((∃ d, Value.ofLexical s Xsd.double = .double d) ↔ IsDoubleForm s) ∧
    (¬ IsDoubleForm s → Value.ofLexical s Xsd.double = .typed s Xsd.double)

theorem exists_ofLexical_double_iff {s : String} :
    (∃ d, Value.ofLexical s Xsd.double = .double d) ↔ IsDoubleForm s ∨ HasLooseName s := by
  rw [← exists_double?_iff, Value.ofLexical_double]
  cases Lexical.double? s <;> simp

/-- **Doubles.** The literals that are doubles are just those whose text is a lexical form, and all
others keep their text, but for the other names of special doubles. These are read as doubles that
are not finite. -/
theorem doubles_are_forms_iff (s : String) :
    (DoublesAreForms s ↔ ¬ HasLooseName s) ∧
      (HasLooseName s → ∃ d, Value.ofLexical s Xsd.double = .double d ∧ d.isFinite = false) := by
  refine ⟨⟨fun hforms hloose => ?_, fun hno => ⟨?_, fun hform => ?_⟩⟩, fun hloose => ?_⟩
  · have hform := hforms.1.mp (exists_ofLexical_double_iff.mpr (Or.inr hloose))
    exact (hasLooseName_iff.mp hloose).not_doubleForm (isDoubleForm_iff.mp hform)
  · rw [exists_ofLexical_double_iff, or_iff_left hno]
  · have hnone : Lexical.double? s = none := Option.eq_none_iff_forall_ne_some.mpr fun d hd =>
      (exists_double?_iff.mp ⟨d, hd⟩).elim hform hno
    rw [Value.ofLexical_double, hnone]
    rfl
  · obtain ⟨sign, word, hcs, hname, -, -⟩ := hasLooseName_iff.mp hloose
    obtain ⟨d, hd⟩ := exists_special?_iff.mpr hname
    have hread := double?_eq_some_iff.mpr (hcs ▸ WritesDouble.special sign hd)
    refine ⟨_, by rw [Value.ofLexical_double, hread]; rfl, ?_⟩
    split
    · exact (isFinite_of_special? hd).2
    · exact (isFinite_of_special? hd).1

/-- A padded numeral without a digit before its point, a numeral without a digit in its power of
ten, and a special name with a sign it may not have. -/
theorem doubles_are_forms_iff_at :
    DoublesAreForms " -.5E+03\n" ∧ DoublesAreForms "1e" ∧
      ∃ d, Value.ofLexical "-nAn" Xsd.double = .double d ∧ d.isFinite = false := by
  have hform : DoubleForm (Text.trim " -.5E+03\n".toList) :=
    .numeral (n := ⟨some .minus, [], some ['5'], some (some .plus, ['0', '3'])⟩)
      (Numeral.read?_eq_some_iff.mp (by decide)) (by decide)
  have hnone : Lexical.double? "1e" = none := by decide
  have hname : HasLooseName "-nAn" :=
    hasLooseName_iff.mpr ⟨some .minus, ['n', 'A', 'n'], by decide, by decide, by decide, nofun⟩
  refine ⟨(doubles_are_forms_iff _).1.mpr fun hloose => ?_,
    (doubles_are_forms_iff _).1.mpr fun hloose => ?_, (doubles_are_forms_iff _).2 hname⟩
  · exact (hasLooseName_iff.mp hloose).not_doubleForm hform
  · obtain ⟨d, hd⟩ := exists_double?_iff.mpr (Or.inr hloose)
    rw [hnone] at hd
    cases hd

/-- The name of infinity in small letters is no lexical form, and yet it is read as a double. -/
theorem doubles_beyond_forms :
    ¬ DoublesAreForms "inf" ∧ Value.ofLexical "inf" Xsd.double = .double (1.0 / 0.0) := by
  have hloose : LooseName (Text.trim "inf".toList) :=
    ⟨none, ['i', 'n', 'f'], by decide, by decide, by decide, by decide⟩
  have hdouble : Lexical.double? "inf" = some (1.0 / 0.0) :=
    double?_eq_some_iff.mpr (@WritesDouble.special none ['i', 'n', 'f'] _ rfl)
  have hread : Value.ofLexical "inf" Xsd.double = .double (1.0 / 0.0) := by
    rw [Value.ofLexical_double, hdouble]
    rfl
  refine ⟨fun hforms => ?_, hread⟩
  exact hloose.not_doubleForm (isDoubleForm_iff.mp (hforms.1.mp ⟨_, hread⟩))

end Residual
