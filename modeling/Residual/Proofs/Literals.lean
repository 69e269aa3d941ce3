import Residual.Proofs.Layout
import Residual.Proofs.DoubleForms
import Residual.Proofs.Constant

/-!
# Literals and their spelling

A literal is built from a text and a datatype. If the text is one of a value, the literal is this
value, and its own text is the one that is written for the value. Nothing but the spelling is lost:
the literal has the datatype it was built with and the number that its first text has, and building
it again from its own text does not change it.

* `Lexical.boolean?_ofBoolean`, `Lexical.double?_ofDouble`: reading what was written.
* `Value.Reads.numeric?_eq`, `Value.Reads.ofLexical_lexicalForm`: the number of a literal, and the
  literal with its own text.
* `literals_keep_all_but_spelling`: what a literal keeps.
-/

namespace Residual

open Residual.Decimal

/-! ## Reading what is written -/

theorem Decimal.Numeral.Writes.trim_eq {cs : List Char} {n : Numeral} (h : Writes cs n) :
    Text.trim cs = cs := by
  have hmark : ∀ c ∈ ['+', '-', '.', 'e', 'E'], Text.isBlank c = false := by
    simp [Text.isBlank, Text.inRanges, Text.blankRanges]
  exact Text.trim_eq_self (h.forall_mem (fun _ => isBlank_of_isDigit) hmark)

namespace Lexical

theorem boolean?_ofBoolean (b : Bool) : boolean? (ofBoolean b) = some b := by
  cases b <;> decide

/-- A double is read from what is written for it, whether or not it is finite. -/
theorem double?_ofDouble (d : Float) : double? (ofDouble d) = some d := by
  rcases special_cases d with ⟨hfinite, hnan⟩ | rfl | rfl | rfl
  · have hwrites := Numeral.writes_render (doubleLayout.isWellFormed_numeral d)
    have htext : ofDouble d = String.ofList (doubleLayout.numeral d).render := by
      rw [ofDouble, hnan, hfinite]
      rfl
    have hread : WritesDouble (Text.trim (ofDouble d).toList) (doubleLayout.numeral d).toFloat := by
      rw [htext, String.toList_ofList, hwrites.trim_eq]
      exact .numeral hwrites (doubleLayout.significant_numeral_ne_nil d)
    rw [doubleLayout.toFloat_numeral hfinite] at hread
    exact double?_eq_some_iff.mpr hread
  · have htext : ofDouble (0.0 / 0.0) = "NaN" := by decide +kernel
    rw [htext]
    exact double?_eq_some_iff.mpr (@WritesDouble.special none ['N', 'a', 'N'] _ rfl)
  · have htext : ofDouble (1.0 / 0.0) = "INF" := by decide +kernel
    rw [htext]
    exact double?_eq_some_iff.mpr (@WritesDouble.special none ['I', 'N', 'F'] _ rfl)
  · have htext : ofDouble (-(1.0 / 0.0)) = "-INF" := by decide +kernel
    rw [htext]
    exact double?_eq_some_iff.mpr (@WritesDouble.special (some .minus) ['I', 'N', 'F'] _ rfl)

end Lexical

/-! ## What a literal keeps -/

namespace Value

theorem ofLexical_boolean (s : String) :
    ofLexical s Xsd.boolean = ((Lexical.boolean? s).map boolean).getD (typed s Xsd.boolean) := by
  rw [ofLexical, native?, if_neg (by decide), if_pos rfl]

variable {l dt : String} {v : Value}

theorem Reads.numeric?_eq (h : Reads l dt v) : v.numeric? = (typed l dt).numeric? := by
  cases h with
  | string => rfl
  | boolean => rfl
  | integer hn =>
    rw [numeric?, numeric?, if_pos (by decide), hn]
    rfl
  | double hd =>
    rw [numeric?, numeric?, if_neg (by decide), if_pos (by decide), hd]
    rfl
  | kept => rfl

theorem Reads.lexicalForm_eq (h : Reads l dt v)
    (hdt : dt ∉ [Xsd.boolean, Xsd.integer, Xsd.double]) : v.lexicalForm = l := by
  cases h with
  | string => rfl
  | boolean => exact absurd hdt (by decide)
  | integer => exact absurd hdt (by decide)
  | double => exact absurd hdt (by decide)
  | kept => rfl

theorem Reads.ofLexical_lexicalForm (h : Reads l dt v) : ofLexical v.lexicalForm dt = v := by
  cases h with
  | string => exact ofLexical_string l
  | boolean =>
    rw [ofLexical_boolean, lexicalForm, Lexical.boolean?_ofBoolean]
    rfl
  | integer =>
    rw [ofLexical_integer, lexicalForm, Lexical.integer?_ofInteger]
    rfl
  | double =>
    rw [ofLexical_double, lexicalForm, Lexical.double?_ofDouble]
    rfl
  | kept hnone =>
    rw [lexicalForm, ofLexical, hnone]
    rfl

end Value

/-- **Literals.** A literal has the datatype it was built with and the number that the text has
before it is read. Unless the datatype has values of its own, whose texts may be spelled in several
ways, it has the text as well. Built again from its own text it is the same. -/
theorem literals_keep_all_but_spelling (l dt : String) :
    (Value.ofLexical l dt).datatype? = some dt ∧
      (Value.ofLexical l dt).numeric? = (Value.typed l dt).numeric? ∧
      (dt ∉ [Xsd.boolean, Xsd.integer, Xsd.double] → (Value.ofLexical l dt).lexicalForm = l) ∧
      Value.ofLexical (Value.ofLexical l dt).lexicalForm dt = Value.ofLexical l dt := by
  have hreads := Value.reads_ofLexical l dt
  exact ⟨Value.datatype?_ofLexical l dt, hreads.numeric?_eq, hreads.lexicalForm_eq,
    hreads.ofLexical_lexicalForm⟩

/-- A padded literal of a datatype without values of its own keeps its text. -/
theorem literals_keep_all_but_spelling_at :
    (Value.ofLexical " 007 " Xsd.int).lexicalForm = " 007 " :=
  (literals_keep_all_but_spelling " 007 " Xsd.int).2.2.1 (by decide)

end Residual
