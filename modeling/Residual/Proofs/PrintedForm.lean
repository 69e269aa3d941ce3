import Residual.Proofs.Escapes
import Residual.Proofs.Literals

/-!
# The printed form of a constant

A constant can be told from its printed form. The form begins with the quote of a literal, with the
bracket of an IRI, or with neither; after the closing quote comes nothing, a language tag or a
datatype. A double is printed as the literal that keeps its text would be, and these two cannot be
told apart.

* `Value.spelledOut`: a double as the literal that keeps its text.
* `Value.ofPrinted?`, `Value.ofPrinted?_text`: the constant with a printed form.
* `Value.text_eq_iff`: the constants with the same printed form.
* `Value.quoted?`, `Value.text_of_quoted?`: what a literal has between its quotes and after them.
* `text_identifies`: the printed form identifies a constant.
-/

namespace Residual

open Residual.Decimal

/-! ## The texts of numbers -/

theorem Text.escapeChar_of_isDigit {c : Char} (h : c.isDigit = true) : escapeChar c = [c] := by
  have hne : ∀ d : Char, d.isDigit = false → c ≠ d := fun _ => ne_of_isDigit h
  simp [escapeChar, hne '\\' rfl, hne '"' rfl, hne '\n' rfl, hne '\r' rfl]

theorem Decimal.mem_integerText {z : Int} {c : Char} (h : c ∈ integerText z) :
    c.isDigit = true ∨ c = '-' := by
  cases z with
  | ofNat n => exact Or.inl (isDigits_digits n c h)
  | negSucc n =>
    rcases List.mem_cons.mp h with rfl | h
    · exact Or.inr rfl
    · exact Or.inl (isDigits_digits (n + 1) c h)

namespace Lexical

/-- A double is written as a numeral, or by one of three names. -/
theorem ofDouble_cases (d : Float) :
    ofDouble d = String.ofList (doubleLayout.numeral d).render ∨
      ofDouble d ∈ ["NaN", "INF", "-INF"] := by
  unfold ofDouble
  split_ifs <;> simp

theorem escape_ofDouble (d : Float) : Text.escape (ofDouble d).toList = (ofDouble d).toList := by
  rw [Text.escape_eq_flatMap]
  refine Text.flatMap_eq_self ?_
  rcases ofDouble_cases d with h | h
  · rw [h, String.toList_ofList]
    exact (Numeral.writes_render (doubleLayout.isWellFormed_numeral d)).forall_mem
      (fun _ => Text.escapeChar_of_isDigit) (by simp [Text.escapeChar])
  · simp only [List.mem_cons, List.not_mem_nil, or_false] at h
    rcases h with h | h | h <;> rw [h] <;> simp [Text.escapeChar]

end Lexical

namespace Value

/-! ## Reading printed forms -/

/-- The literal with the given text, by what is printed after the closing quote. -/
def literalOf? (s : String) : List Char → Option Value
  | [] => some (string s)
  | '@' :: lang => some (langString s (String.ofList lang))
  | '^' :: '^' :: '<' :: name => some (typed s (String.ofList name.dropLast))
  | _ => none

/-- The constant that is printed without quotes and brackets. -/
def ofBare (s : String) : Value :=
  match Lexical.integer? s with
  | some n => integer n
  | none => ((Lexical.boolean? s).map boolean).getD typeError

/-- The constant with a printed form. A double is not told from the literal with its text, and the
literal is given. -/
def ofPrinted? : List Char → Option Value
  | '"' :: cs => (Text.unquote? cs).bind fun p => literalOf? (String.ofList p.1) p.2
  | '<' :: cs => some (iri (String.ofList cs.dropLast))
  | cs => some (ofBare (String.ofList cs))

theorem ofPrinted?_quote (s : String) (rest : List Char) :
    ofPrinted? ('"' :: Text.escape s.toList ++ '"' :: rest) = literalOf? s rest := by
  rw [List.cons_append, ofPrinted?, Text.unquote?_escape, Option.bind_some, String.ofList_toList]

theorem ofPrinted?_bare {s : String} (h : ∀ c ∈ s.toList.head?, c ≠ '"' ∧ c ≠ '<') :
    ofPrinted? s.toList = some (ofBare s) := by
  have hbare : ∀ cs : List Char, (∀ c ∈ cs.head?, c ≠ '"' ∧ c ≠ '<') →
      ofPrinted? cs = some (ofBare (String.ofList cs)) := by
    intro cs hcs
    cases cs with
    | nil => rfl
    | cons c cs =>
      obtain ⟨hquote, hbracket⟩ := hcs c rfl
      simp [ofPrinted?, hquote, hbracket]
  rw [hbare _ h, String.ofList_toList]

theorem ofPrinted?_ofInteger (n : Int64) :
    ofPrinted? (Lexical.ofInteger n).toList = some (integer n) := by
  have hhead : ∀ c ∈ (Lexical.ofInteger n).toList.head?, c ≠ '"' ∧ c ≠ '<' := by
    intro c hc
    rw [Lexical.ofInteger, String.toList_ofList] at hc
    rcases mem_integerText (List.mem_of_mem_head? hc) with h | rfl
    · exact ⟨ne_of_isDigit h rfl, ne_of_isDigit h rfl⟩
    · decide
  rw [ofPrinted?_bare hhead, ofBare, Lexical.integer?_ofInteger]

/-- A constant is read from its printed form, unless it is a double. -/
theorem ofPrinted?_text {v : Value} (hv : ∀ d, v ≠ double d) :
    ofPrinted? v.text.toList = some v := by
  cases v with
  | boolean b => cases b <;> decide
  | integer n => exact ofPrinted?_ofInteger n
  | double d => exact absurd rfl (hv d)
  | string s =>
    have htext : (string s).text.toList = '"' :: Text.escape s.toList ++ '"' :: [] := by
      simp [text, Text.quote]
    rw [htext, ofPrinted?_quote]
    rfl
  | langString s lang =>
    have htext : (langString s lang).text.toList =
        '"' :: Text.escape s.toList ++ '"' :: '@' :: lang.toList := by
      simp [text, Text.quote]
    rw [htext, ofPrinted?_quote, literalOf?, String.ofList_toList]
  | typed s name =>
    have htext : (typed s name).text.toList =
        '"' :: Text.escape s.toList ++ '"' :: '^' :: '^' :: '<' :: (name.toList ++ ['>']) := by
      simp [text, Text.quote]
    rw [htext, ofPrinted?_quote, literalOf?, List.dropLast_concat, String.ofList_toList]
  | iri name =>
    have htext : (iri name).text.toList = '<' :: (name.toList ++ ['>']) := by
      simp [text]
    rw [htext, ofPrinted?, List.dropLast_concat, String.ofList_toList]
  | typeError => decide

/-! ## Constants with the same printed form -/

/-- A double as the literal that keeps its text. All other constants stay as they are. -/
def spelledOut : Value → Value
  | double d => typed (Lexical.ofDouble d) Xsd.double
  | v => v

theorem spelledOut_ne_double (v : Value) (d : Float) : v.spelledOut ≠ double d := by
  cases v <;> exact nofun

theorem spelledOut_of_ne_double {v : Value} (hv : ∀ d, v ≠ double d) : v.spelledOut = v := by
  cases v with
  | double d => exact absurd rfl (hv d)
  | _ => rfl

theorem text_spelledOut (v : Value) : v.spelledOut.text = v.text := by
  cases v with
  | double d =>
    rw [← String.toList_inj]
    simp [spelledOut, text, Text.quote, Lexical.escape_ofDouble]
  | _ => rfl

/-- Only a double and the literal with its text have the same form. -/
theorem text_eq_iff {v w : Value} : v.text = w.text ↔ v.spelledOut = w.spelledOut := by
  constructor
  · intro h
    have hv := ofPrinted?_text (spelledOut_ne_double v)
    have hw := ofPrinted?_text (spelledOut_ne_double w)
    rw [text_spelledOut] at hv hw
    rw [h, hw] at hv
    exact (Option.some.inj hv).symm
  · intro h
    rw [← text_spelledOut v, h, text_spelledOut]

/-! ## The closing quote -/

/-- What a literal has between quotes, and what is printed after the closing one. -/
def quoted? : Value → Option (String × String)
  | double d => some (Lexical.ofDouble d, "^^<" ++ Xsd.double ++ ">")
  | string s => some (s, "")
  | langString s lang => some (s, "@" ++ lang)
  | typed s name => some (s, "^^<" ++ name ++ ">")
  | _ => none

theorem text_of_quoted? {v : Value} {s after : String} (h : v.quoted? = some (s, after)) :
    v.text = Text.quote s ++ after := by
  rw [← String.toList_inj, ← text_spelledOut]
  cases v with
  | double | string | langString | typed =>
    cases h
    simp [spelledOut, text]
  | _ => cases h

theorem isClosingQuote_text_iff {v : Value} {s after : String} (h : v.quoted? = some (s, after))
    {i : Nat} : Text.IsClosingQuote v.text.toList i ↔ i = (Text.escape s.toList).length + 1 := by
  have htext : v.text.toList = '"' :: Text.escape s.toList ++ '"' :: after.toList := by
    rw [text_of_quoted? h]
    simp [Text.quote]
  rw [htext, Text.isClosingQuote_iff]

end Value

/-- **Printed forms.** Constants that are not doubles are equal if their printed forms are. The four
replacements that escape a text, one after the other, never take two texts to the same one, and
come to looking at every character once. So the first quote of a printed literal that no backslash
escapes, but for the one it begins with, is the one after its escaped text. -/
theorem text_identifies :
    (∀ v w : Value, (∀ d, v ≠ .double d) → (∀ d, w ≠ .double d) → (v.text = w.text ↔ v = w)) ∧
      Function.Injective Text.escape ∧
      (∀ cs, Text.escape cs =
        Text.replaceAll '\r' ['\\', 'r'] (Text.replaceAll '\n' ['\\', 'n']
          (Text.replaceAll '"' ['\\', '"'] (Text.replaceAll '\\' ['\\', '\\'] cs)))) ∧
      (∀ cs, Text.escape cs = cs.flatMap Text.escapeChar) ∧
      ∀ (v : Value) (s after : String), v.quoted? = some (s, after) →
        v.text = Text.quote s ++ after ∧
          ∀ i, Text.IsClosingQuote v.text.toList i ↔ i = (Text.escape s.toList).length + 1 := by
  refine ⟨fun v w hv hw => ?_, Text.escape_injective, fun cs => ?_, Text.escape_eq_flatMap,
    fun v s after h => ⟨Value.text_of_quoted? h, fun i => Value.isClosingQuote_text_iff h⟩⟩
  · rw [Value.text_eq_iff, Value.spelledOut_of_ne_double hv, Value.spelledOut_of_ne_double hw]
  · exact (Text.escape_eq_flatMap cs).trans (Text.replaceInTurn_escapes cs).symm

/-- A quote and a backslash at the end of the text, in two forms that differ by one backslash. -/
theorem text_identifies_at :
    (Value.string "a\"@en").text ≠ (Value.langString "a\\" "en\"").text ∧
      Text.IsClosingQuote (Value.string "a\"@en").text.toList 7 ∧
      Text.IsClosingQuote (Value.langString "a\\" "en\"").text.toList 4 := by
  obtain ⟨hidentifies, -, -, -, hclosing⟩ := text_identifies
  refine ⟨fun h => ?_, ((hclosing _ _ _ rfl).2 7).mpr (by decide),
    ((hclosing _ _ _ rfl).2 4).mpr (by decide)⟩
  cases (hidentifies _ _ (by simp) (by simp)).mp h

end Residual
