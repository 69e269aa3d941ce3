import Residual.Proofs.Nearest
import Residual.Proofs.Shortest

/-!
# The numerals of doubles

Wherever the point is put, and whether or not a power of ten is written, the numeral of a double
stands for the decimal that was chosen for it. This decimal rounds to the double, and so the numeral
may be read as the double. It has the digit zero alone only for zero; so there is no superfluous
zero at the beginning of a numeral, and there are digits on both sides of its point.

* `Layout.isWellFormed_numeral`, `Layout.isNumber_numeral`: every layout writes proper numbers.
* `Layout.toFloat_numeral`: the numeral of a finite double denotes it.
-/

namespace Residual.Json.Token

/-- The digits before the point are the digit zero or do not begin with it. -/
theorem isNumber_iff {n : Decimal.Numeral} : isNumber n = true ↔
    n.sign ≠ some .plus ∧ n.fraction ≠ some [] ∧
      (n.whole = ['0'] ∨ (n.whole ≠ [] ∧ n.whole.head? ≠ some '0')) := by
  simp [isNumber, and_assoc]

end Residual.Json.Token

namespace Residual.Decimal

namespace Numeral

/-- The number that a numeral denotes, but for the sign. -/
def value (n : Numeral) : ℚ := natural n.significant * 10 ^ n.scale

theorem IsWellFormed.significant {n : Numeral} (h : n.IsWellFormed) : IsDigits n.significant := by
  unfold Numeral.significant
  refine h.whole.append ?_
  cases hfraction : n.fraction with
  | none => exact fun c hc => nomatch hc
  | some ds => exact h.fraction ds hfraction

end Numeral

/-! ## Proper numbers -/

namespace Layout

open Json.Token

theorem isWellFormed_positionalNumeral (l : Layout) (sign : Option Sign) (s : Scaled) :
    (l.positionalNumeral sign s).IsWellFormed := by
  have hds := isDigits_digits s.digits
  unfold positionalNumeral
  dsimp only
  split
  · refine ⟨hds.append (isDigits_replicate_zero _), fun ds h => ?_, nofun⟩
    split at h
    · cases h
    · cases h
      exact isDigits_replicate_zero 1
  · split
    · refine ⟨hds.take _, fun ds h => ?_, nofun⟩
      cases h
      exact hds.drop _
    · refine ⟨isDigits_replicate_zero 1, fun ds h => ?_, nofun⟩
      cases h
      exact (isDigits_replicate_zero _).append hds

theorem isWellFormed_exponentNumeral (sign : Option Sign) (s : Scaled) :
    (exponentNumeral sign s).IsWellFormed := by
  have hds := isDigits_digits s.digits
  refine ⟨hds.take 1, fun ds h => ?_, fun sign' ds h => ?_⟩
  · unfold exponentNumeral at h
    dsimp only at h
    split at h
    · cases h
    · cases h
      exact hds.drop 1
  · cases h
    exact ⟨isDigits_digits _, digits_ne_nil _⟩

theorem isWellFormed_numeral (l : Layout) (d : Float) : (l.numeral d).IsWellFormed := by
  unfold numeral
  dsimp only
  split
  · exact isWellFormed_positionalNumeral _ _ _
  · exact isWellFormed_exponentNumeral _ _

theorem isNumber_positionalNumeral (l : Layout) {sign : Option Sign} {s : Scaled}
    (hsign : sign ≠ some .plus) (hs : s.digits = 0 → s.exponent = 0) :
    isNumber (l.positionalNumeral sign s) = true := by
  have hne := digits_ne_nil s.digits
  have hlength : 0 < (digits s.digits).length := List.length_pos_iff.mpr hne
  unfold positionalNumeral
  dsimp only
  split
  · rename_i hexponent
    refine isNumber_iff.mpr ⟨hsign, by split <;> simp, ?_⟩
    by_cases hzero : s.digits = 0
    · simp [hzero, hs hzero, digits_zero]
    · refine Or.inr ⟨by simp [hne], ?_⟩
      dsimp only
      rw [List.head?_append, Option.or_of_isSome (by simp [hne])]
      exact head?_digits hzero
  · rename_i hexponent
    split
    · rename_i hpoint
      -- some digits stand before the point, and some after it
      have hzero : s.digits ≠ 0 := fun h => hexponent (Int.le_of_eq (hs h).symm)
      refine isNumber_iff.mpr ⟨hsign, ?_, Or.inr ⟨?_, ?_⟩⟩
      · simp only [ne_eq, Option.some.injEq, List.drop_eq_nil_iff]
        omega
      · simp only [ne_eq, List.take_eq_nil_iff, hne, or_false]
        omega
      · dsimp only
        rw [List.head?_take, if_neg (by omega)]
        exact head?_digits hzero
    · exact isNumber_iff.mpr ⟨hsign, by simp [hne], Or.inl rfl⟩

theorem isNumber_exponentNumeral {sign : Option Sign} {s : Scaled} (hsign : sign ≠ some .plus) :
    isNumber (exponentNumeral sign s) = true := by
  have hne := digits_ne_nil s.digits
  have hlength : 0 < (digits s.digits).length := List.length_pos_iff.mpr hne
  unfold exponentNumeral
  refine isNumber_iff.mpr ⟨hsign, ?_, ?_⟩
  · dsimp only
    split
    · simp
    · simp only [ne_eq, Option.some.injEq, List.drop_eq_nil_iff]
      omega
  · dsimp only
    by_cases hzero : s.digits = 0
    · exact Or.inl (by rw [hzero, digits_zero]; rfl)
    · refine Or.inr ⟨by simp [hne], ?_⟩
      rw [List.head?_take, if_neg (by decide)]
      exact head?_digits hzero

theorem isNumber_numeral (l : Layout) (d : Float) : isNumber (l.numeral d) = true := by
  have hsign : (if d.toBits >>> 63 = 1 then some Sign.minus else none) ≠ some .plus := by
    split <;> simp
  unfold numeral
  dsimp only
  split
  · exact isNumber_positionalNumeral l hsign Binary.exponent_shortest
  · exact isNumber_exponentNumeral hsign

theorem significant_numeral_ne_nil (l : Layout) (d : Float) : (l.numeral d).significant ≠ [] := by
  obtain ⟨-, -, hwhole⟩ := isNumber_iff.mp (l.isNumber_numeral d)
  intro hnil
  have hempty : (l.numeral d).whole = [] := (List.append_eq_nil_iff.mp hnil).1
  rw [hempty] at hwhole
  rcases hwhole with hzero | ⟨hne, -⟩
  · cases hzero
  · exact hne rfl

/-! ## The number denoted -/

/-- Without a power of ten, the digits after the point are counted. -/
theorem scale_of_point (sign : Option Sign) (whole : List Char) (fraction : Option (List Char)) :
    Numeral.scale { sign, whole, fraction } = -((fraction.getD []).length : ℤ) := by
  unfold Numeral.scale
  dsimp only
  rw [Int.zero_sub]

theorem value_of_point (sign : Option Sign) (whole : List Char) (fraction : Option (List Char)) :
    Numeral.value { sign, whole, fraction } =
      natural (whole ++ fraction.getD []) * 10 ^ (-((fraction.getD []).length : ℤ)) := by
  rw [Numeral.value, scale_of_point]
  rfl

/-- Only the zero that is put after the point of an integral number is not among the digits. -/
theorem scale_positionalNumeral (l : Layout) (sign : Option Sign) (s : Scaled) :
    (l.positionalNumeral sign s).scale =
      if 0 ≤ s.exponent then
        if l.isWhole (s.exponent + (digits s.digits).length - 1) then 0 else -1
      else s.exponent := by
  unfold positionalNumeral
  dsimp only
  split
  · rw [scale_of_point]
    split <;> rfl
  · split
    · rw [scale_of_point, Option.getD_some, List.length_drop]
      omega
    · rw [scale_of_point, Option.getD_some, List.length_append, List.length_replicate]
      push_cast
      omega

theorem value_positionalNumeral (l : Layout) (sign : Option Sign) (s : Scaled) :
    (l.positionalNumeral sign s).value = s.digits * 10 ^ s.exponent := by
  unfold positionalNumeral
  dsimp only
  split
  · rename_i hexponent
    have hzeros : natural (digits s.digits ++ List.replicate s.exponent.toNat '0') =
        s.digits * 10 ^ s.exponent.toNat := by
      rw [natural_append, natural_digits, natural_replicate_zero, List.length_replicate,
        Nat.add_zero]
    have hpower : (10 : ℚ) ^ s.exponent = 10 ^ s.exponent.toNat := by
      rw [← zpow_natCast, Int.toNat_of_nonneg hexponent]
    rw [value_of_point, hpower]
    split
    · rw [Option.getD_none, List.append_nil, hzeros]
      push_cast
      simp
    · rw [Option.getD_some, natural_append, hzeros]
      simp [natural, digitValue]
  · rename_i hexponent
    split
    · rename_i hpoint
      rw [value_of_point, Option.getD_some, List.take_append_drop, natural_digits]
      congr 2
      rw [List.length_drop]
      omega
    · rename_i hpoint
      rw [value_of_point, Option.getD_some, natural_append, natural_append, natural_digits,
        natural_replicate_zero]
      have hzero : natural ['0'] = 0 := rfl
      rw [hzero, Nat.zero_mul, Nat.zero_mul, Nat.zero_add, Nat.zero_add]
      congr 2
      rw [List.length_append, List.length_replicate]
      push_cast
      omega

/-- The digits after the point, if there are any. -/
theorem fraction_exponentNumeral (sign : Option Sign) (s : Scaled) :
    (exponentNumeral sign s).fraction.getD [] = (digits s.digits).drop 1 := by
  unfold exponentNumeral
  dsimp only
  split
  · rename_i hone
    exact (List.drop_eq_nil_of_le (Nat.le_of_eq hone)).symm
  · rfl

theorem scale_exponentNumeral (sign : Option Sign) (s : Scaled) :
    (exponentNumeral sign s).scale = s.exponent := by
  have hlength : 0 < (digits s.digits).length := List.length_pos_iff.mpr (digits_ne_nil _)
  rw [Numeral.scale, fraction_exponentNumeral, List.length_drop]
  unfold exponentNumeral
  dsimp only
  generalize (digits s.digits).length = n at *
  rw [natural_digits]
  by_cases he : s.exponent + n - 1 < 0
  · rw [if_pos he, if_pos rfl]
    omega
  · rw [if_neg he, if_neg nofun]
    omega

theorem value_exponentNumeral (sign : Option Sign) (s : Scaled) :
    (exponentNumeral sign s).value = s.digits * 10 ^ s.exponent := by
  have hsignificant : (exponentNumeral sign s).significant = digits s.digits := by
    rw [Numeral.significant, fraction_exponentNumeral]
    exact List.take_append_drop 1 _
  rw [Numeral.value, hsignificant, scale_exponentNumeral, natural_digits]

theorem value_numeral (l : Layout) (d : Float) : (l.numeral d).value =
    ((Binary.ofBits d.toBits).shortest l.tie).digits *
      10 ^ ((Binary.ofBits d.toBits).shortest l.tie).exponent := by
  unfold numeral
  dsimp only
  split
  · exact value_positionalNumeral _ _ _
  · exact value_exponentNumeral _ _

theorem sign_numeral (l : Layout) (d : Float) : (l.numeral d).sign = some .minus ↔
    signOf d.toBits = .negative := by
  have hsign : (l.numeral d).sign = if d.toBits >>> 63 = 1 then some Sign.minus else none := by
    unfold numeral positionalNumeral exponentNumeral
    dsimp only
    split_ifs <;> rfl
  rw [hsign, signOf]
  split_ifs <;> simp

/-! ## Reading what is laid out -/

/-- **Digits of doubles.** Whatever the layout, the numeral of a finite double denotes it. -/
theorem toFloat_numeral (l : Layout) {d : Float} (h : d.isFinite = true) :
    (l.numeral d).toFloat = d := by
  have hdigits := (l.isWellFormed_numeral d).significant
  unfold Numeral.toFloat
  rcases finite_cases h with ⟨hzero, hd⟩ | ⟨hx, hexponent, hd⟩
  · have hvalue : (natural (l.numeral d).significant : ℚ) * 10 ^ (l.numeral d).scale = 0 := by
      refine (l.value_numeral d).trans ?_
      rw [Binary.shortest, if_pos hzero, Nat.cast_zero, zero_mul]
    have hnatural : natural (l.numeral d).significant = 0 := by
      have hpos : (10 : ℚ) ^ (l.numeral d).scale ≠ 0 := zpow_ne_zero _ (by decide)
      exact_mod_cast (mul_eq_zero.mp hvalue).resolve_right hpos
    rw [Numeral.magnitude_zero hdigits hnatural]
    dsimp only
    cases hsign : signOf d.toBits with
    | negative =>
      rw [if_pos ((l.sign_numeral d).mpr hsign), hd, hsign]
      decide +kernel
    | positive =>
      rw [if_neg (fun hminus => by rw [l.sign_numeral d, hsign] at hminus; cases hminus), hd, hsign]
      decide +kernel
  · have hvalue : (Binary.ofBits d.toBits).Denotes (l.numeral d).value :=
      l.value_numeral d ▸ Binary.denotes_shortest hx hexponent l.tie
    rw [Numeral.magnitude_eq hx hexponent hdigits hvalue]
    dsimp only
    cases hsign : signOf d.toBits with
    | negative =>
      rw [if_pos ((l.sign_numeral d).mpr hsign), Binary.neg_float hx hexponent, ← hsign]
      exact hd.symm
    | positive =>
      rw [if_neg (fun hminus => by rw [l.sign_numeral d, hsign] at hminus; cases hminus), ← hsign]
      exact hd.symm

end Layout

end Residual.Decimal
