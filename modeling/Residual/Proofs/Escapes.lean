import Mathlib.Data.List.Basic
import Mathlib.Algebra.Group.Nat.Even
import Residual.Text.Escape

/-!
# Reading escaped texts

Replacing characters one after the other comes to the same as looking at each character once, if no
replacement brings in a character whose turn is still to come. The backslash, which all escapes
bring in, is replaced first, so that this holds of the escapes. An escape is then a backslash with
one more character wherever it stands, and the text can be read again up to the quote that closes
it.

* `replaceInTurn_eq_flatMap`: when replacements do not get in each other's way.
* `escape_eq_flatMap`: escaping character by character.
* `unquote?`, `unquote?_escape`: reading a text up to its closing quote.
* `IsBareQuote`, `isClosingQuote_iff`: the closing quote is the first one that is not escaped.
-/

namespace Residual.Text

/-! ## Replacements in turn -/

/-- What a table has for a character; the character itself if there is nothing. -/
def replacement (table : List (Char × List Char)) (c : Char) : List Char :=
  (table.lookup c).getD [c]

theorem replacement_cons (c : Char) (text : List Char) (table : List (Char × List Char))
    (d : Char) :
    replacement ((c, text) :: table) d = if d = c then text else replacement table d := by
  unfold replacement
  rw [List.lookup_cons]
  by_cases h : d = c
  · simp [h]
  · simp [h, beq_eq_false_iff_ne.mpr h]

theorem replacement_of_forall_ne {table : List (Char × List Char)} {c : Char}
    (h : ∀ p ∈ table, p.1 ≠ c) : replacement table c = [c] := by
  have hnone : table.lookup c = none := List.lookup_eq_none_iff.mpr fun p hp => by
    simpa using (h p hp).symm
  rw [replacement, hnone, Option.getD_none]

theorem flatMap_eq_self {f : Char → List Char} {cs : List Char} (h : ∀ c ∈ cs, f c = [c]) :
    cs.flatMap f = cs := by
  rw [List.flatMap_congr h, List.flatMap_singleton']

theorem replaceAll_flatMap (f : Char → List Char) (c : Char) (text cs : List Char) :
    (replaceAll c text cs).flatMap f =
      cs.flatMap fun d => if d = c then text.flatMap f else f d := by
  rw [replaceAll, List.flatMap_assoc]
  refine List.flatMap_congr fun d _ => ?_
  split
  · rfl
  · exact List.flatMap_singleton f d

/-- Characters may be replaced one after the other if no replacement contains one whose turn is
still to come. -/
theorem replaceInTurn_eq_flatMap {table : List (Char × List Char)}
    (h : table.Pairwise fun p q => q.1 ∉ p.2) (cs : List Char) :
    replaceInTurn table cs = cs.flatMap (replacement table) := by
  induction table generalizing cs with
  | nil => exact (flatMap_eq_self fun _ _ => rfl).symm
  | cons p table ih =>
    obtain ⟨c, text⟩ := p
    obtain ⟨htext, htable⟩ := List.pairwise_cons.mp h
    have hkept : text.flatMap (replacement table) = text := by
      refine flatMap_eq_self fun d hd => replacement_of_forall_ne ?_
      rintro q hq rfl
      exact htext q hq hd
    calc replaceInTurn ((c, text) :: table) cs
        = (replaceAll c text cs).flatMap (replacement table) := ih htable _
      _ = cs.flatMap fun d => if d = c then text else replacement table d := by
        rw [replaceAll_flatMap, hkept]
      _ = cs.flatMap (replacement ((c, text) :: table)) := by
        rw [funext (replacement_cons c text table)]

/-! ## Escaping character by character -/

/-- How a character of a literal is printed between quotes. -/
def escapeChar (c : Char) : List Char :=
  if c = '\\' then ['\\', '\\']
  else if c = '"' then ['\\', '"']
  else if c = '\n' then ['\\', 'n']
  else if c = '\r' then ['\\', 'r']
  else [c]

theorem escapeChar_cases (c : Char) :
    (∃ d, escapeChar c = ['\\', d]) ∨ (escapeChar c = [c] ∧ c ≠ '\\' ∧ c ≠ '"') := by
  unfold escapeChar
  split_ifs with hbackslash hquote
  · exact Or.inl ⟨_, rfl⟩
  · exact Or.inl ⟨_, rfl⟩
  · exact Or.inl ⟨_, rfl⟩
  · exact Or.inl ⟨_, rfl⟩
  · exact Or.inr ⟨rfl, hbackslash, hquote⟩

theorem replacement_escapes (c : Char) : replacement escapes c = escapeChar c := by
  simp only [escapes, replacement_cons]
  rfl

theorem replaceInTurn_escapes (cs : List Char) :
    replaceInTurn escapes cs = cs.flatMap escapeChar := by
  rw [replaceInTurn_eq_flatMap (by decide), funext replacement_escapes]

/-- With the backslash last, the backslash that escapes a quote would be escaped itself. -/
example : replaceInTurn escapes.reverse ['"'] = ['\\', '\\', '"'] := by decide

theorem escape_eq_flatMap (cs : List Char) : escape cs = cs.flatMap escapeChar := by
  unfold escape
  split
  · exact replaceInTurn_escapes cs
  · rename_i hnone
    refine (flatMap_eq_self fun c hc => ?_).symm
    have hplain := List.any_eq_false.mp (Bool.eq_false_iff.mpr hnone) c hc
    simp only [decide_eq_true_eq, not_or] at hplain
    simp [escapeChar, hplain]

theorem escape_cons (c : Char) (cs : List Char) : escape (c :: cs) = escapeChar c ++ escape cs := by
  simp only [escape_eq_flatMap, List.flatMap_cons]

/-! ## Reading up to the closing quote -/

/-- The character for which a backslash and another character stand. -/
def unescapeChar (c : Char) : Char :=
  if c = 'n' then '\n' else if c = 'r' then '\r' else c

/-- Reads an escaped text up to the quote that closes it, with what is left after the quote. -/
def unquote? : List Char → Option (List Char × List Char)
  | [] => none
  | '"' :: rest => some ([], rest)
  | '\\' :: c :: cs => (unquote? cs).map fun p => (unescapeChar c :: p.1, p.2)
  | c :: cs => (unquote? cs).map fun p => (c :: p.1, p.2)

theorem unquote?_escapeChar (c : Char) (cs : List Char) :
    unquote? (escapeChar c ++ cs) = (unquote? cs).map fun p => (c :: p.1, p.2) := by
  unfold escapeChar
  split_ifs with hbackslash hquote hnewline hreturn
  · subst hbackslash; rfl
  · subst hquote; rfl
  · subst hnewline; rfl
  · subst hreturn; rfl
  · simp [unquote?, hbackslash]

theorem unquote?_escape (cs rest : List Char) :
    unquote? (escape cs ++ '"' :: rest) = some (cs, rest) := by
  induction cs with
  | nil => rfl
  | cons c cs ih =>
    rw [escape_cons, List.append_assoc, unquote?_escapeChar, ih]
    rfl

theorem escape_injective : Function.Injective escape := by
  intro cs ds h
  have hread := unquote?_escape cs []
  rw [h, unquote?_escape] at hread
  exact (Prod.mk.inj (Option.some.inj hread)).1.symm

/-! ## The closing quote -/

/-- The number of backslashes at the end of a text. -/
def trailingBackslashes (cs : List Char) : Nat := (cs.reverse.takeWhile (· = '\\')).length

/-- A quote that is not escaped: as far as there are backslashes before it, they escape each
other. -/
def IsBareQuote (cs : List Char) (i : Nat) : Prop :=
  cs[i]? = some '"' ∧ Even (trailingBackslashes (cs.take i))

/-- The first bare quote after the one that opens a text. -/
def IsClosingQuote (cs : List Char) (i : Nat) : Prop :=
  0 < i ∧ IsBareQuote cs i ∧ ∀ j, 0 < j → j < i → ¬ IsBareQuote cs j

theorem trailingBackslashes_concat (cs : List Char) (c : Char) :
    trailingBackslashes (cs ++ [c]) = if c = '\\' then trailingBackslashes cs + 1 else 0 := by
  unfold trailingBackslashes
  rw [List.reverse_concat, List.takeWhile_cons]
  by_cases h : c = '\\' <;> simp [h]

theorem isBareQuote_concat {cs : List Char} {c : Char} :
    IsBareQuote (cs ++ [c]) cs.length ↔ c = '"' ∧ Even (trailingBackslashes cs) := by
  simp [IsBareQuote]

theorem isBareQuote_append {cs : List Char} {i : Nat} (h : i < cs.length) (ds : List Char) :
    IsBareQuote (cs ++ ds) i ↔ IsBareQuote cs i := by
  rw [IsBareQuote, IsBareQuote, List.getElem?_append_left h,
    List.take_append_of_le_length (Nat.le_of_lt h)]

/-- No quote of the second text is bare where it stands, after the first one. -/
def NoBareQuote (before cs : List Char) : Prop :=
  ∀ i, before.length ≤ i → i < (before ++ cs).length → ¬ IsBareQuote (before ++ cs) i

theorem noBareQuote_singleton {before : List Char} {c : Char} :
    NoBareQuote before [c] ↔ ¬ (c = '"' ∧ Even (trailingBackslashes before)) := by
  rw [← isBareQuote_concat]
  constructor
  · intro h
    exact h before.length le_rfl (by simp)
  · intro h i hfrom hto
    obtain rfl : i = before.length := by
      simp only [List.length_append, List.length_singleton] at hto
      omega
    exact h

theorem NoBareQuote.append {before cs ds : List Char} (hcs : NoBareQuote before cs)
    (hds : NoBareQuote (before ++ cs) ds) : NoBareQuote before (cs ++ ds) := by
  intro i hfrom hto
  rw [← List.append_assoc] at hto ⊢
  by_cases hi : i < (before ++ cs).length
  · rw [isBareQuote_append hi]
    exact hcs i hfrom hi
  · exact hds i (Nat.le_of_not_lt hi) hto

/-- The step: after an even number of backslashes the form of a character contains no bare quote,
and the number of backslashes at its end is even again. -/
theorem escapeChar_bare {before : List Char} (h : Even (trailingBackslashes before)) (c : Char) :
    NoBareQuote before (escapeChar c) ∧ Even (trailingBackslashes (before ++ escapeChar c)) := by
  rcases escapeChar_cases c with ⟨d, hc⟩ | ⟨hc, hbackslash, hquote⟩
  · have hodd : ¬ Even (trailingBackslashes (before ++ ['\\'])) := by
      rw [trailingBackslashes_concat, if_pos rfl, Nat.even_add_one]
      exact not_not_intro h
    have hfirst : NoBareQuote before ['\\'] :=
      noBareQuote_singleton.mpr fun hbare => absurd hbare.1 (by decide)
    have hsecond : NoBareQuote (before ++ ['\\']) [d] :=
      noBareQuote_singleton.mpr fun hbare => hodd hbare.2
    rw [hc]
    refine ⟨hfirst.append hsecond, ?_⟩
    rw [List.append_cons, trailingBackslashes_concat]
    split
    · exact Nat.even_add_one.mpr hodd
    · exact Even.zero
  · rw [hc]
    refine ⟨noBareQuote_singleton.mpr fun hbare => hquote hbare.1, ?_⟩
    rw [trailingBackslashes_concat, if_neg hbackslash]
    exact Even.zero

/-- No quote in an escaped text is bare. The induction goes over the text from its beginning, and
what stands before the rest of it grows. -/
theorem escape_bare {before : List Char} (h : Even (trailingBackslashes before)) (cs : List Char) :
    NoBareQuote before (escape cs) ∧ Even (trailingBackslashes (before ++ escape cs)) := by
  induction cs generalizing before with
  | nil =>
    rw [escape_eq_flatMap, List.flatMap_nil]
    refine ⟨fun i hfrom hto => ?_, by rwa [List.append_nil]⟩
    rw [List.append_nil] at hto
    omega
  | cons c cs ih =>
    obtain ⟨hno, heven⟩ := escapeChar_bare h c
    obtain ⟨hno', heven'⟩ := ih heven
    rw [escape_cons]
    refine ⟨hno.append hno', ?_⟩
    rwa [← List.append_assoc]

theorem IsClosingQuote.unique {cs : List Char} {i j : Nat} (hi : IsClosingQuote cs i)
    (hj : IsClosingQuote cs j) : i = j := by
  obtain ⟨hi₀, hi, hi'⟩ := hi
  obtain ⟨hj₀, hj, hj'⟩ := hj
  rcases Nat.lt_trichotomy i j with hlt | heq | hlt
  · exact absurd hi (hj' i hi₀ hlt)
  · exact heq
  · exact absurd hj (hi' j hj₀ hlt)

/-- The quote that closes an escaped text is the one right after it, whatever follows. -/
theorem isClosingQuote_iff (cs rest : List Char) {i : Nat} :
    IsClosingQuote ('"' :: escape cs ++ '"' :: rest) i ↔ i = (escape cs).length + 1 := by
  have hopening : Even (trailingBackslashes ['"']) := by decide
  obtain ⟨hno, heven⟩ := escape_bare hopening cs
  have hclosing : IsClosingQuote ('"' :: escape cs ++ '"' :: rest) (('"' :: escape cs).length) := by
    refine ⟨Nat.succ_pos _, ?_, fun j hpos hj => ?_⟩
    · have htext : '"' :: escape cs ++ '"' :: rest = '"' :: escape cs ++ ['"'] ++ rest := by simp
      rw [htext, isBareQuote_append (by simp)]
      exact isBareQuote_concat.mpr ⟨rfl, heven⟩
    · rw [isBareQuote_append hj]
      exact hno j hpos hj
  constructor
  · intro h
    exact h.unique hclosing
  · rintro rfl
    exact hclosing

end Residual.Text
