import Mathlib.Algebra.Group.Nat.Defs
import Residual.Json.Token

/-!
# Numerals and their texts

A numeral is made of runs of digits, and its text is read part by part: each run ends where the mark
of the next part begins. So reading undoes writing for every numeral whose parts are digits.

* `Decimal.natural_digits`, `Decimal.head?_digits`: the digits of a number.
* `Decimal.inInt64?_eq_some_iff`: integers that are 64-bit words.
* `Numeral.Writes`, `Numeral.read?_eq_some_iff`: the texts that are read as a numeral.
* `Numeral.IsWellFormed`: numerals whose parts are runs of digits.
* `Numeral.read?_render`: the text of such a numeral is read as this numeral.
-/

namespace Residual.Decimal

/-! ## Runs of digits -/

/-- A text of digits and nothing else. -/
def IsDigits (ds : List Char) : Prop := ∀ c ∈ ds, c.isDigit = true

instance (ds : List Char) : Decidable (IsDigits ds) :=
  decidable_of_iff (ds.all Char.isDigit = true) List.all_eq_true

theorem IsDigits.append {ds es : List Char} (hds : IsDigits ds) (hes : IsDigits es) :
    IsDigits (ds ++ es) :=
  List.forall_mem_append.mpr ⟨hds, hes⟩

theorem IsDigits.take {ds : List Char} (h : IsDigits ds) (n : Nat) : IsDigits (ds.take n) :=
  fun c hc => h c (List.mem_of_mem_take hc)

theorem IsDigits.drop {ds : List Char} (h : IsDigits ds) (n : Nat) : IsDigits (ds.drop n) :=
  fun c hc => h c (List.mem_of_mem_drop hc)

theorem isDigits_replicate_zero (n : Nat) : IsDigits (List.replicate n '0') := by
  intro c hc
  rw [List.eq_of_mem_replicate hc]
  rfl

theorem natural_digits (n : Nat) : natural (digits n) = n := Nat.ofDigitChars_ten_toDigits

theorem isDigits_digits (n : Nat) : IsDigits (digits n) :=
  fun _ hc => Nat.isDigit_of_mem_toDigits (by decide) (by decide) hc

theorem digits_ne_nil (n : Nat) : digits n ≠ [] := Nat.toDigits_ne_nil

theorem digits_zero : digits 0 = ['0'] := Nat.toDigits_zero 10

/-- Only the number zero begins with the digit zero. -/
theorem head?_digits {n : Nat} (h : n ≠ 0) : (digits n).head? ≠ some '0' := by
  induction n using Nat.strongRecOn with
  | ind n ih =>
    rw [digits, Nat.toDigits_eq_if (by decide)]
    split
    · simpa using h
    · have hdiv : n / 10 ≠ 0 := by omega
      rw [List.head?_append, Option.or_of_isSome (by simp [Nat.toDigits_ne_nil])]
      exact ih (n / 10) (by omega) hdiv

/-! ## The number of a run of digits -/

theorem toNat_of_isDigit {c : Char} (hc : c.isDigit = true) : 48 ≤ c.toNat ∧ c.toNat ≤ 57 := by
  simpa [Char.isDigit, UInt32.le_iff_toNat_le] using hc

theorem ne_of_isDigit {c d : Char} (hc : c.isDigit = true) (hd : d.isDigit = false) : c ≠ d := by
  rintro rfl
  rw [hc] at hd
  cases hd

theorem digitValue_lt {c : Char} (hc : c.isDigit = true) : digitValue c < 10 := by
  have hrange := toNat_of_isDigit hc
  change c.toNat - 48 < 10
  omega

theorem digitValue_pos {c : Char} (hc : c.isDigit = true) (hne : c ≠ '0') : 0 < digitValue c := by
  have hrange := toNat_of_isDigit hc
  have hnat : c.toNat ≠ 48 := fun h => hne (Char.toNat_inj.mp h)
  change 0 < c.toNat - 48
  omega

theorem natural_append (ds es : List Char) :
    natural (ds ++ es) = natural ds * 10 ^ es.length + natural es := by
  change Nat.ofDigitChars 10 (ds ++ es) 0 = _
  rw [Nat.ofDigitChars_append, Nat.ofDigitChars_eq_ofDigitChars_zero, Nat.mul_comm]
  rfl

theorem natural_cons (c : Char) (cs : List Char) :
    natural (c :: cs) = digitValue c * 10 ^ cs.length + natural cs := by
  rw [← List.singleton_append, natural_append]
  simp [natural]

theorem natural_replicate_zero (n : Nat) : natural (List.replicate n '0') = 0 :=
  Nat.ofDigitChars_replicate_zero

theorem IsDigits.natural_lt {ds : List Char} (h : IsDigits ds) : natural ds < 10 ^ ds.length := by
  induction ds with
  | nil => decide
  | cons c cs ih =>
    have hc := digitValue_lt (h c List.mem_cons_self)
    have hcs := ih fun d hd => h d (List.mem_cons_of_mem c hd)
    rw [natural_cons, List.length_cons]
    calc digitValue c * 10 ^ cs.length + natural cs
        < digitValue c * 10 ^ cs.length + 10 ^ cs.length := Nat.add_lt_add_left hcs _
      _ = (digitValue c + 1) * 10 ^ cs.length := (Nat.succ_mul _ _).symm
      _ ≤ 10 * 10 ^ cs.length := Nat.mul_le_mul_right _ hc
      _ = 10 ^ (cs.length + 1) := Nat.pow_succ'.symm

/-- A number without leading zeros has as many digits as its size tells. -/
theorem le_natural_cons {c : Char} (hc : c.isDigit = true) (hne : c ≠ '0') (cs : List Char) :
    10 ^ cs.length ≤ natural (c :: cs) := by
  rw [natural_cons]
  exact Nat.le_add_right_of_le (Nat.le_mul_of_pos_left _ (digitValue_pos hc hne))

theorem natural_dropWhile_zero (ds : List Char) :
    natural (ds.dropWhile (· = '0')) = natural ds := by
  induction ds with
  | nil => rfl
  | cons c cs ih =>
    by_cases hc : c = '0'
    · rw [List.dropWhile_cons_of_pos (by simpa using hc), ih, natural_cons, hc]
      simp [digitValue]
    · rw [List.dropWhile_cons_of_neg (by simpa using hc)]

/-- Without its leading zeros a run of digits is empty, or its number has as many digits as are
left. -/
theorem IsDigits.dropWhile_zero_cases {ds : List Char} (h : IsDigits ds) :
    (ds.dropWhile (· = '0') = [] ∧ natural ds = 0) ∨
      ∃ c cs, ds.dropWhile (· = '0') = c :: cs ∧ natural (c :: cs) = natural ds ∧
        10 ^ cs.length ≤ natural ds ∧ natural ds < 10 ^ (cs.length + 1) := by
  have hdigits : IsDigits (ds.dropWhile (· = '0')) := fun c hc =>
    h c ((List.dropWhile_suffix _).subset hc)
  have hhead := List.head?_dropWhile_not (· = '0') ds
  rw [← natural_dropWhile_zero ds]
  cases hds : ds.dropWhile (· = '0') with
  | nil => exact Or.inl ⟨rfl, rfl⟩
  | cons c cs =>
    rw [hds] at hdigits hhead
    have hc := hdigits c List.mem_cons_self
    exact Or.inr ⟨c, cs, rfl, rfl, le_natural_cons hc (by simpa using hhead) cs, hdigits.natural_lt⟩

/-! ## 64-bit integers -/

/-- An integer is found as a 64-bit word if it is the number of the word. -/
theorem inInt64?_eq_some_iff {z : Int} {n : Int64} : inInt64? z = some n ↔ n.toInt = z := by
  unfold inInt64?
  constructor
  · intro h
    split at h
    · rename_i hrange
      have hmax : Int64.maxValue.toInt < 2 ^ 63 := by decide
      rw [← Option.some.inj h]
      exact Int64.toInt_ofInt_of_le hrange.1 (Int.lt_of_le_of_lt hrange.2 hmax)
    · cases h
  · rintro rfl
    rw [if_pos ⟨n.minValue_le_toInt, n.toInt_le⟩, Int64.ofInt_toInt]

/-! ## Where a run of digits ends -/

/-- The text does not go on with a digit. -/
def EndsDigits (cs : List Char) : Prop := ∀ c ∈ cs.head?, c.isDigit = false

theorem takeDigits_append {ds cs : List Char} (hds : IsDigits ds) (hcs : EndsDigits cs) :
    Numeral.takeDigits (ds ++ cs) = (ds, cs) := by
  have hnone : cs.takeWhile Char.isDigit = [] ∧ cs.dropWhile Char.isDigit = cs := by
    cases cs with
    | nil => exact ⟨rfl, rfl⟩
    | cons c cs => simp [hcs c rfl]
  rw [Numeral.takeDigits, List.takeWhile_append_of_pos hds, List.dropWhile_append_of_pos hds,
    hnone.1, hnone.2, List.append_nil]

namespace Numeral

/-! ## Reading what is written -/

/-- The parts of the numeral are digits, and there are some in a power of ten. -/
structure IsWellFormed (n : Numeral) : Prop where
  whole : IsDigits n.whole
  fraction : ∀ ds, n.fraction = some ds → IsDigits ds
  exponent : ∀ sign ds, n.exponent = some (sign, ds) → IsDigits ds ∧ ds ≠ []

/-- The text of a power of ten. -/
def exponentText : Option (Option Sign × List Char) → List Char
  | none => []
  | some (sign, ds) => 'e' :: ((sign.map Sign.char).toList ++ ds)

/-- The text of the digits after the point. -/
def fractionText : Option (List Char) → List Char
  | none => []
  | some ds => '.' :: ds

/-- The texts that are read as a power of ten: nothing, or a mark, an optional sign and some
digits. -/
inductive WritesExponent : List Char → Option (Option Sign × List Char) → Prop
  | absent : WritesExponent [] none
  | present {mark : Char} (hmark : mark = 'e' ∨ mark = 'E') (sign : Option Sign) {ds : List Char}
    (hds : IsDigits ds) (hne : ds ≠ []) :
    WritesExponent (mark :: ((sign.map Sign.char).toList ++ ds)) (some (sign, ds))

/-- The texts that are read as a numeral: an optional sign, digits, a point with digits after it or
no point, and a power of ten or none. -/
inductive Writes : List Char → Numeral → Prop
  | intro (sign : Option Sign) {whole : List Char} {fraction : Option (List Char)} {cs : List Char}
    {exponent : Option (Option Sign × List Char)} (hwhole : IsDigits whole)
    (hfraction : ∀ ds, fraction = some ds → IsDigits ds) (hexponent : WritesExponent cs exponent) :
    Writes ((sign.map Sign.char).toList ++ (whole ++ (fractionText fraction ++ cs)))
      { sign, whole, fraction, exponent }

/-! ### Signs -/

theorem takeSign_append (sign : Option Sign) {cs : List Char}
    (hcs : ∀ c ∈ cs.head?, c ≠ '+' ∧ c ≠ '-') :
    takeSign ((sign.map Sign.char).toList ++ cs) = (sign, cs) := by
  cases sign with
  | some s => cases s <;> rfl
  | none =>
    unfold takeSign
    split
    · exact absurd rfl (hcs '+' (by simp_all)).1
    · exact absurd rfl (hcs '-' (by simp_all)).2
    · rfl

theorem takeSign_eq (cs : List Char) :
    cs = ((takeSign cs).1.map Sign.char).toList ++ (takeSign cs).2 := by
  unfold takeSign
  split <;> rfl

theorem ne_sign_of_isDigit {c : Char} (h : c.isDigit = true) : c ≠ '+' ∧ c ≠ '-' :=
  ⟨ne_of_isDigit h rfl, ne_of_isDigit h rfl⟩

/-! ### Powers of ten -/

theorem writesExponent_exponentText {exponent : Option (Option Sign × List Char)}
    (h : ∀ sign ds, exponent = some (sign, ds) → IsDigits ds ∧ ds ≠ []) :
    WritesExponent (exponentText exponent) exponent := by
  cases exponent with
  | none => exact .absent
  | some p => exact .present (Or.inl rfl) p.1 (h p.1 p.2 rfl).1 (h p.1 p.2 rfl).2

theorem exponentOf?_eq_some_iff {cs : List Char} {exponent : Option (Option Sign × List Char)} :
    exponentOf? cs = some exponent ↔ WritesExponent cs exponent := by
  constructor
  · intro h
    cases cs with
    | nil =>
      cases h
      exact .absent
    | cons mark cs =>
      obtain ⟨⟨hmark, hne, hds⟩, he⟩ := Option.ite_none_right_eq_some.mp h
      rw [takeSign_eq cs, ← Option.some.inj he]
      exact .present hmark _ (List.all_eq_true.mp hds) hne
  · rintro (_ | ⟨hmark, sign, hds, hne⟩)
    · rfl
    · have hhead := fun c hc => ne_sign_of_isDigit (hds c (List.mem_of_mem_head? hc))
      rw [exponentOf?, takeSign_append sign hhead]
      exact if_pos ⟨hmark, hne, List.all_eq_true.mpr hds⟩

/-- A power of ten, if there is one, begins with its mark. -/
theorem WritesExponent.head {cs : List Char} {exponent : Option (Option Sign × List Char)}
    (h : WritesExponent cs exponent) : ∀ c ∈ cs.head?, c = 'e' ∨ c = 'E' := by
  intro c hc
  cases h with
  | absent => cases hc
  | present hmark =>
    cases hc
    exact hmark

theorem WritesExponent.endsDigits {cs : List Char} {exponent : Option (Option Sign × List Char)}
    (h : WritesExponent cs exponent) : EndsDigits cs := by
  intro c hc
  rcases h.head c hc with rfl | rfl <;> rfl

/-! ### Digits before and after the point -/

theorem takeDigits_eq (cs : List Char) : cs = (takeDigits cs).1 ++ (takeDigits cs).2 :=
  List.takeWhile_append_dropWhile.symm

theorem isDigits_takeDigits (cs : List Char) : IsDigits (takeDigits cs).1 :=
  List.all_eq_true.mp List.all_takeWhile

section

variable {fraction : Option (List Char)} {cs : List Char}
  {exponent : Option (Option Sign × List Char)}

theorem takeFraction_append (hfraction : ∀ ds, fraction = some ds → IsDigits ds)
    (h : WritesExponent cs exponent) :
    takeFraction (fractionText fraction ++ cs) = (fraction, cs) := by
  cases fraction with
  | some ds =>
    rw [fractionText, List.cons_append, takeFraction, takeDigits_append (hfraction ds rfl)
      h.endsDigits]
  | none =>
    rw [fractionText, List.nil_append]
    unfold takeFraction
    split
    · rcases h.head '.' rfl with h | h <;> cases h
    · rfl

theorem takeFraction_eq (cs : List Char) :
    cs = fractionText (takeFraction cs).1 ++ (takeFraction cs).2 := by
  unfold takeFraction
  split
  · exact congrArg ('.' :: ·) (takeDigits_eq _)
  · rfl

theorem isDigits_takeFraction (cs : List Char) :
    ∀ ds, (takeFraction cs).1 = some ds → IsDigits ds := by
  intro ds h
  unfold takeFraction at h
  split at h
  · cases h
    exact isDigits_takeDigits _
  · cases h

theorem endsDigits_fractionText_append (h : WritesExponent cs exponent) :
    EndsDigits (fractionText fraction ++ cs) := by
  cases fraction with
  | none => exact h.endsDigits
  | some ds =>
    intro c hc
    cases hc
    rfl

/-- After the sign there is a digit, or the mark of another part. -/
theorem head?_unsigned {whole : List Char} (hwhole : IsDigits whole)
    (h : WritesExponent cs exponent) :
    ∀ c ∈ (whole ++ (fractionText fraction ++ cs)).head?, c ≠ '+' ∧ c ≠ '-' := by
  intro c hc
  cases whole with
  | cons d ds =>
    cases hc
    exact ne_sign_of_isDigit (hwhole _ List.mem_cons_self)
  | nil =>
    cases fraction with
    | some ds =>
      cases hc
      decide
    | none => rcases h.head c hc with rfl | rfl <;> decide

end

/-! ### Whole texts -/

theorem read?_eq_map (cs : List Char) : read? cs =
    (exponentOf? (takeFraction (takeDigits (takeSign cs).2).2).2).map fun exponent =>
      { sign := (takeSign cs).1
        whole := (takeDigits (takeSign cs).2).1
        fraction := (takeFraction (takeDigits (takeSign cs).2).2).1
        exponent } := by
  rw [Option.map_eq_bind]
  rfl

theorem read?_eq_some_iff {cs : List Char} {n : Numeral} : read? cs = some n ↔ Writes cs n := by
  rw [read?_eq_map, Option.map_eq_some_iff]
  constructor
  · rintro ⟨exponent, hexponent, rfl⟩
    have hwrites := Writes.intro (takeSign cs).1 (isDigits_takeDigits (takeSign cs).2)
      (isDigits_takeFraction (takeDigits (takeSign cs).2).2) (exponentOf?_eq_some_iff.mp hexponent)
    -- the text is put together again from the parts that were taken from it
    rwa [← takeFraction_eq, ← takeDigits_eq, ← takeSign_eq] at hwrites
  · rintro ⟨sign, hwhole, hfraction, hexponent⟩
    rw [takeSign_append sign (head?_unsigned hwhole hexponent),
      takeDigits_append hwhole (endsDigits_fractionText_append hexponent),
      takeFraction_append hfraction hexponent]
    exact ⟨_, exponentOf?_eq_some_iff.mpr hexponent, rfl⟩

/-- What holds of the digits and of the marks between them holds of every character. -/
theorem Writes.forall_mem {cs : List Char} {n : Numeral} {P : Char → Prop} (h : Writes cs n)
    (hdigit : ∀ c, c.isDigit = true → P c) (hmark : ∀ c ∈ ['+', '-', '.', 'e', 'E'], P c) :
    ∀ c ∈ cs, P c := by
  have hsign : ∀ sign : Option Sign, ∀ c ∈ (sign.map Sign.char).toList, P c := by
    rintro (_ | _ | _) c hc
    · cases hc
    · exact hmark c (by simp_all [Sign.char])
    · exact hmark c (by simp_all [Sign.char])
  have hdigits : ∀ ds, IsDigits ds → ∀ c ∈ ds, P c := fun ds hds c hc => hdigit c (hds c hc)
  obtain ⟨sign, hwhole, hfraction, hexponent⟩ := h
  rename_i whole fraction cs exponent
  simp only [List.forall_mem_append]
  refine ⟨hsign sign, hdigits whole hwhole, ?_, ?_⟩
  · cases fraction with
    | none => exact nofun
    | some ds =>
      exact List.forall_mem_cons.mpr ⟨hmark '.' (by simp), hdigits ds (hfraction ds rfl)⟩
  · cases hexponent with
    | absent => exact nofun
    | present he sign hds hne =>
      refine List.forall_mem_cons.mpr ⟨hmark _ (by simp [he]), ?_⟩
      exact List.forall_mem_append.mpr ⟨hsign sign, hdigits _ hds⟩

theorem render_eq (n : Numeral) : n.render = (n.sign.map Sign.char).toList ++
    (n.whole ++ (fractionText n.fraction ++ exponentText n.exponent)) := by
  change (n.sign.map Sign.char).toList ++ n.whole ++ fractionText n.fraction ++
    exponentText n.exponent = _
  rw [List.append_assoc, List.append_assoc]

theorem writes_render {n : Numeral} (h : n.IsWellFormed) : Writes n.render n := by
  rw [render_eq]
  exact .intro n.sign h.whole h.fraction (writesExponent_exponentText h.exponent)

theorem read?_render {n : Numeral} (h : n.IsWellFormed) : read? n.render = some n :=
  read?_eq_some_iff.mpr (writes_render h)

end Numeral

end Residual.Decimal
