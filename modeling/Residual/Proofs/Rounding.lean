import Mathlib
import Residual.Decimal.Shortest

/-!
# Rounding to a double

A product or a quotient of doubles is cut off after some digits in base two, and two more bits tell
what is left. These bits are kept when further digits are cut off, and so the number is rounded
once, from its exact value, although it is shifted twice: the second shift only makes up for a
carry.

The numbers that round to a double form an interval around its value. Those are the numbers that a
decimal is compared with when the double is written, so that one relation serves both directions.

* `Represents`: a mantissa and two bits stand for a number.
* `Binary.IsDouble`, `Binary.Denotes`: doubles, and the numbers that round to them.
* `roundWithAccuracy_eq`: a number is rounded to the double to whose interval it belongs.
* `mul_eq`, `div_eq`: so are products and quotients.
-/

namespace Residual.Decimal

open Float.Model Float.Model.UnpackedFloat

/-! ## Rounding to a natural number -/

/-- The number rounds to the natural number `m`: it is nearer to it than to any other, or it is as
near to it as to another, and `m` is even. -/
def RoundsTo (x : ℚ) (m : ℕ) : Prop :=
  (m - 1 / 2 < x ∧ x < m + 1 / 2) ∨ (m % 2 = 0 ∧ (x = m - 1 / 2 ∨ x = m + 1 / 2))

theorem RoundsTo.le {x : ℚ} {m n : ℕ} (hm : RoundsTo x m) (hn : RoundsTo x n) : m ≤ n := by
  by_contra hlt
  have hle : (n : ℚ) + 1 ≤ m := by exact_mod_cast Nat.lt_of_not_le hlt
  rcases hm with ⟨hm, -⟩ | ⟨hm, hx⟩
  · rcases hn with ⟨-, hn⟩ | ⟨-, hx | hx⟩ <;> linarith
  · rcases hn with ⟨-, hn⟩ | ⟨hn, hx'⟩
    · rcases hx with hx | hx <;> linarith
    · -- two even numbers are not neighbours
      have hle' : (n : ℚ) + 2 ≤ m := by exact_mod_cast (by omega : n + 2 ≤ m)
      rcases hx with hx | hx <;> rcases hx' with hx' | hx' <;> linarith

theorem RoundsTo.unique {x : ℚ} {m n : ℕ} (hm : RoundsTo x m) (hn : RoundsTo x n) : m = n :=
  Nat.le_antisymm (hm.le hn) (hn.le hm)

/-! ## Mantissas with two more bits -/

/-- The number begins with the mantissa, and the two bits after it tell what is left: nothing, less
than one half, one half, or more. -/
inductive Represents : ExtendedMantissa → ℚ → Prop
  | exact {m : ℕ} {x : ℚ} (h : x = m) : Represents ⟨m, false, false⟩ x
  | low {m : ℕ} {x : ℚ} (h : m < x) (h' : x < m + 1 / 2) : Represents ⟨m, false, true⟩ x
  | half {m : ℕ} {x : ℚ} (h : x = m + 1 / 2) : Represents ⟨m, true, false⟩ x
  | high {m : ℕ} {x : ℚ} (h : m + 1 / 2 < x) (h' : x < m + 1) : Represents ⟨m, true, true⟩ x

namespace Represents

variable {em : ExtendedMantissa} {x : ℚ}

theorem lower (h : Represents em x) : em.mantissa ≤ x := by
  cases h <;> dsimp only <;> linarith

theorem upper (h : Represents em x) : x < em.mantissa + 1 := by
  cases h <;> dsimp only <;> linarith

theorem roundsTo (h : Represents em x) : RoundsTo x em.roundedMantissa := by
  cases h with
  | @exact m x h =>
    change RoundsTo x m
    left
    constructor <;> linarith
  | @low m x h h' =>
    change RoundsTo x m
    left
    constructor <;> linarith
  | @half m x h =>
    -- the even one of the two neighbours is taken
    change RoundsTo x (m + m % 2)
    right
    rcases Nat.mod_two_eq_zero_or_one m with hm | hm <;> rw [hm]
    · exact ⟨hm, Or.inr h⟩
    · refine ⟨by omega, Or.inl ?_⟩
      push_cast
      linarith
  | @high m x h h' =>
    change RoundsTo x (m + 1)
    left
    push_cast
    constructor <;> linarith

theorem shiftRightOne (h : Represents em x) : Represents em.shiftRightOne (x / 2) := by
  have hparity : ∀ m : ℕ, (m % 2 = 0 ∧ (m : ℚ) = 2 * (m / 2 : ℕ)) ∨
      (m % 2 = 1 ∧ (m : ℚ) = 2 * (m / 2 : ℕ) + 1) := by
    intro m
    rcases Nat.mod_two_eq_zero_or_one m with hm | hm
    · exact Or.inl ⟨hm, by exact_mod_cast (by omega : m = 2 * (m / 2))⟩
    · exact Or.inr ⟨hm, by exact_mod_cast (by omega : m = 2 * (m / 2) + 1)⟩
  cases h with
  | @exact m x h =>
    rcases hparity m with ⟨hm, hhalf⟩ | ⟨hm, hhalf⟩ <;>
      simp only [ExtendedMantissa.shiftRightOne, hm]
    · exact .exact (by linarith)
    · exact .half (by linarith)
  | @low m x h h' =>
    rcases hparity m with ⟨hm, hhalf⟩ | ⟨hm, hhalf⟩ <;>
      simp only [ExtendedMantissa.shiftRightOne, hm]
    · exact .low (by linarith) (by linarith)
    · exact .high (by linarith) (by linarith)
  | @half m x h =>
    rcases hparity m with ⟨hm, hhalf⟩ | ⟨hm, hhalf⟩ <;>
      simp only [ExtendedMantissa.shiftRightOne, hm]
    · exact .low (by linarith) (by linarith)
    · exact .high (by linarith) (by linarith)
  | @high m x h h' =>
    rcases hparity m with ⟨hm, hhalf⟩ | ⟨hm, hhalf⟩ <;>
      simp only [ExtendedMantissa.shiftRightOne, hm]
    · exact .low (by linarith) (by linarith)
    · exact .high (by linarith) (by linarith)

theorem shiftRight (h : Represents em x) (n : ℕ) : Represents (em >>> n) (x / 2 ^ n) := by
  induction n with
  | zero =>
    rw [pow_zero, div_one]
    exact h
  | succ n ih =>
    have hstep := ih.shiftRightOne
    rw [div_div, ← pow_succ] at hstep
    exact hstep

end Represents

/-! ## Doubles and what rounds to them -/

namespace Binary

/-- A double other than zero. It has 53 digits in base two, fewer only with the least exponent, and
the gap below a power of two is narrow. -/
structure IsDouble (x : Binary) : Prop where
  pos : 0 < x.significand
  lt : x.significand < 2 ^ 53
  exponent : -1074 ≤ x.exponent
  normal : 2 ^ 52 ≤ x.significand ∨ x.exponent = -1074
  narrow : x.narrowBelow = true ↔ x.significand = 2 ^ 52 ∧ -1074 < x.exponent

/-- Halfway to the double below. -/
def lower (x : Binary) : ℚ :=
  (x.significand - if x.narrowBelow then 1 / 4 else 1 / 2) * 2 ^ x.exponent

/-- Halfway to the double above. -/
def upper (x : Binary) : ℚ := (x.significand + 1 / 2) * 2 ^ x.exponent

/-- The numbers that round to the double. -/
def Denotes (x : Binary) (v : ℚ) : Prop :=
  (x.lower < v ∧ v < x.upper) ∨ (x.significand % 2 = 0 ∧ (v = x.lower ∨ v = x.upper))

theorem two_zpow_pos (e : ℤ) : (0 : ℚ) < 2 ^ e := zpow_pos two_pos e

theorem lower_lt_upper (x : Binary) : x.lower < x.upper := by
  have hpos := two_zpow_pos x.exponent
  refine mul_lt_mul_of_pos_right ?_ hpos
  split <;> linarith

theorem Denotes.lower_le {x : Binary} {v : ℚ} (h : x.Denotes v) : x.lower ≤ v := by
  have hlt := x.lower_lt_upper
  rcases h with ⟨h, -⟩ | ⟨-, rfl | rfl⟩ <;> linarith

theorem Denotes.le_upper {x : Binary} {v : ℚ} (h : x.Denotes v) : v ≤ x.upper := by
  have hlt := x.lower_lt_upper
  rcases h with ⟨-, h⟩ | ⟨-, rfl | rfl⟩ <;> linarith

theorem half_le_lower (x : Binary) : (x.significand - 1 / 2) * 2 ^ x.exponent ≤ x.lower := by
  have hpos := two_zpow_pos x.exponent
  refine mul_le_mul_of_nonneg_right ?_ hpos.le
  split <;> linarith

end Binary

/-! ## Rounding to a double -/

theorem targetExponent_eq (m : ℕ) (e : ℤ) :
    Format.binary64.targetExponent (totalExponent m e) = max (m.log2 + e - 52) (-1074) := by
  simp only [Format.targetExponent, totalExponent, Format.mantissaBits, Format.minExponent]
  omega

/-- Shifting to a larger exponent divides by a power of two. -/
theorem Represents.shiftToExponent {m : ℕ} {e t : ℤ} {accuracy : Accuracy} {v : ℚ}
    (h : Represents (.ofMantissaAndAccuracy m accuracy) (v / 2 ^ e)) (ht : e ≤ t) :
    (UnpackedFloat.shiftToExponent m e accuracy t).2 = t ∧
      Represents (UnpackedFloat.shiftToExponent m e accuracy t).1 (v / 2 ^ t) := by
  have hsum : e + ((t - e).toNat : ℤ) = t := by omega
  refine ⟨hsum, ?_⟩
  have hshift := h.shiftRight (t - e).toNat
  rwa [div_div, ← zpow_natCast, ← zpow_add₀ two_ne_zero, hsum] at hshift

theorem mantissa_ofMantissaAndAccuracy (m : ℕ) (accuracy : Accuracy) :
    (ExtendedMantissa.ofMantissaAndAccuracy m accuracy).mantissa = m := by
  cases accuracy with
  | exact => rfl
  | inexact o => cases o <;> rfl

section

variable {m : ℕ} {e : ℤ} {accuracy : Accuracy} {v : ℚ}
  (h : Represents (.ofMantissaAndAccuracy m accuracy) (v / 2 ^ e))

include h

theorem Represents.two_zpow_le (hm : m ≠ 0) : (2 : ℚ) ^ (m.log2 + e) ≤ v := by
  have hlower := h.lower
  rw [mantissa_ofMantissaAndAccuracy, le_div_iff₀ (Binary.two_zpow_pos e)] at hlower
  have hlog : (2 : ℚ) ^ m.log2 ≤ m := by exact_mod_cast Nat.log2_self_le hm
  rw [zpow_add₀ two_ne_zero, zpow_natCast]
  exact le_trans (mul_le_mul_of_nonneg_right hlog (Binary.two_zpow_pos e).le) hlower

theorem Represents.lt_two_zpow : v < (2 : ℚ) ^ (m.log2 + 1 + e) := by
  have hupper := h.upper
  rw [mantissa_ofMantissaAndAccuracy, div_lt_iff₀ (Binary.two_zpow_pos e)] at hupper
  have hlog : (m : ℚ) + 1 ≤ 2 ^ (m.log2 + 1) := by exact_mod_cast Nat.lt_log2_self
  have hcast : ((m.log2 : ℤ) + 1) = ((m.log2 + 1 : ℕ) : ℤ) := by push_cast; rfl
  rw [zpow_add₀ two_ne_zero, hcast, zpow_natCast]
  exact lt_of_lt_of_le hupper (mul_le_mul_of_nonneg_right hlog (Binary.two_zpow_pos e).le)

variable {x : Binary} (hx : x.IsDouble) (hv : x.Denotes v)

include hx hv

/-- The first exponent that is tried is that of the double, or one less if the number is just below
a power of two. -/
theorem Represents.targetExponent_cases {t : ℤ} (ht : t = max (m.log2 + e - 52) (-1074))
    (he : e ≤ t) : t = x.exponent ∨
      (t = x.exponent - 1 ∧ x.significand = 2 ^ 52 ∧ x.narrowBelow = true ∧
        v < 2 ^ 53 * 2 ^ t) := by
  have hpos := Binary.two_zpow_pos x.exponent
  have hsig : (x.significand : ℚ) + 1 ≤ 2 ^ 53 := by exact_mod_cast hx.lt
  have hle : t ≤ x.exponent := by
    by_contra hgt
    have hexponent := hx.exponent
    have hm : m ≠ 0 := by
      rintro rfl
      simp only [Nat.log2_zero] at ht
      omega
    have hbelow : (2 : ℚ) ^ (53 + x.exponent) ≤ v :=
      le_trans (zpow_le_zpow_right₀ one_le_two (by omega)) (h.two_zpow_le hm)
    have habove := hv.le_upper
    rw [zpow_add₀ two_ne_zero] at hbelow
    unfold Binary.upper at habove
    have hlt : ((x.significand : ℚ) + 1 / 2) * 2 ^ x.exponent < 2 ^ (53 : ℤ) * 2 ^ x.exponent := by
      have h53 : (2 : ℚ) ^ (53 : ℤ) = 2 ^ 53 := rfl
      exact mul_lt_mul_of_pos_right (by linarith) hpos
    linarith
  rcases hle.eq_or_lt with heq | hlt
  · exact Or.inl heq
  · have hnormal : 2 ^ 52 ≤ x.significand := hx.normal.resolve_right (by omega)
    have hv53 : v < 2 ^ (53 + t) :=
      lt_of_lt_of_le h.lt_two_zpow (zpow_le_zpow_right₀ one_le_two (by omega))
    have hlower := le_trans x.half_le_lower hv.lower_le
    have hnext : t = x.exponent - 1 := by
      have hbinade : (2 : ℚ) ^ (51 + x.exponent) < 2 ^ (53 + t) := by
        refine lt_of_le_of_lt (le_trans ?_ hlower) hv53
        have hcast : (2 : ℚ) ^ 52 ≤ x.significand := by exact_mod_cast hnormal
        have h51 : (2 : ℚ) ^ (51 : ℤ) + 1 ≤ 2 ^ 52 := by norm_num
        rw [zpow_add₀ two_ne_zero]
        exact mul_le_mul_of_nonneg_right (by linarith) hpos.le
      have hexponents := (zpow_lt_zpow_iff_right₀ one_lt_two).mp hbinade
      omega
    subst hnext
    rw [zpow_add₀ two_ne_zero, show (2 : ℚ) ^ (53 : ℤ) = 2 ^ 53 from rfl] at hv53
    have hpower : x.significand = 2 ^ 52 := by
      by_contra hne
      have hcast : (2 : ℚ) ^ 52 + 1 ≤ x.significand := by
        exact_mod_cast Nat.lt_of_le_of_ne hnormal (Ne.symm hne)
      have hhalf : (2 : ℚ) ^ x.exponent = 2 * 2 ^ (x.exponent - 1) := by
        rw [← zpow_one_add₀ two_ne_zero]
        congr 1
        omega
      have hpos' := Binary.two_zpow_pos (x.exponent - 1)
      have hle' : ((2 : ℚ) ^ 52 + 1 / 2) * (2 * 2 ^ (x.exponent - 1)) ≤ v := by
        rw [← hhalf]
        exact le_trans (mul_le_mul_of_nonneg_right (by linarith) hpos.le) hlower
      linarith
    exact Or.inr ⟨rfl, hpower, hx.narrow.mpr ⟨hpower, by omega⟩, hv53⟩

end

/-! ## After the first rounding -/

/-- A rounded mantissa of 53 digits or fewer is left as it is. -/
theorem shiftToTargetExponent_of_lt {r : ℕ} {t : ℤ} (hr : r < 2 ^ 53) (ht : -1074 ≤ t) :
    (shiftToTargetExponent Format.binary64 r t .exact).1.mantissa = r ∧
      (shiftToTargetExponent Format.binary64 r t .exact).2 = t := by
  have hlog : r.log2 ≤ 52 := by
    by_cases hzero : r = 0
    · simp [hzero]
    · have hlt := (Nat.log2_lt hzero).mpr hr
      omega
  have hshift : (max (r.log2 + t - 52) (-1074) - t).toNat = 0 := by omega
  rw [shiftToTargetExponent, targetExponent_eq, UnpackedFloat.shiftToExponent, hshift]
  exact ⟨rfl, Int.add_zero t⟩

/-- A mantissa that was rounded up to the next power of two loses the digit zero at its end. -/
theorem shiftToTargetExponent_carry {t : ℤ} (ht : -1074 ≤ t) :
    (shiftToTargetExponent Format.binary64 (2 ^ 53) t .exact).1.mantissa = 2 ^ 52 ∧
      (shiftToTargetExponent Format.binary64 (2 ^ 53) t .exact).2 = t + 1 := by
  have hshift : (max (((2 ^ 53 : ℕ).log2 : ℤ) + t - 52) (-1074) - t).toNat = 1 := by
    rw [Nat.log2_two_pow]
    omega
  rw [shiftToTargetExponent, targetExponent_eq, UnpackedFloat.shiftToExponent, hshift]
  exact ⟨rfl, rfl⟩

theorem Binary.Denotes.roundsTo {x : Binary} {v : ℚ} (h : x.Denotes v) :
    RoundsTo (v / 2 ^ x.exponent) x.significand := by
  have hpos := two_zpow_pos x.exponent
  unfold Denotes lower upper at h
  rcases h with ⟨hlower, hupper⟩ | ⟨heven, hv | hv⟩
  · left
    rw [lt_div_iff₀ hpos, div_lt_iff₀ hpos]
    refine ⟨lt_of_le_of_lt ?_ hlower, hupper⟩
    exact x.half_le_lower
  · rw [hv, mul_div_cancel_right₀ _ hpos.ne']
    split
    · left
      constructor <;> linarith
    · exact Or.inr ⟨heven, Or.inl rfl⟩
  · rw [hv, mul_div_cancel_right₀ _ hpos.ne']
    exact Or.inr ⟨heven, Or.inr rfl⟩

/-- Below a power of two, what rounds to it lies no further than half a unit of the finer doubles
there. -/
theorem Binary.Denotes.roundsTo_carry {x : Binary} {v : ℚ} (h : x.Denotes v)
    (hpower : x.significand = 2 ^ 52) (hnarrow : x.narrowBelow = true)
    (hlt : v < 2 ^ 53 * 2 ^ (x.exponent - 1)) :
    RoundsTo (v / 2 ^ (x.exponent - 1)) (2 ^ 53) := by
  have hpos := two_zpow_pos (x.exponent - 1)
  have hhalf : (2 : ℚ) ^ x.exponent = 2 * 2 ^ (x.exponent - 1) := by
    rw [← zpow_one_add₀ two_ne_zero]
    congr 1
    omega
  have hlower : x.lower = (2 ^ 53 - 1 / 2) * 2 ^ (x.exponent - 1) := by
    rw [lower, hnarrow, hpower, if_pos rfl, hhalf]
    push_cast
    ring
  have hle := h.lower_le
  rw [hlower] at hle
  unfold RoundsTo
  push_cast
  rcases hle.eq_or_lt with rfl | hgt
  · rw [mul_div_cancel_right₀ _ hpos.ne']
    exact Or.inr ⟨by decide, Or.inl rfl⟩
  · left
    rw [lt_div_iff₀ hpos, div_lt_iff₀ hpos]
    exact ⟨hgt, by linarith⟩

/-- **Rounding.** A number that rounds to a double is rounded to it, from whatever mantissa and
exponent the rounding starts. -/
theorem roundWithAccuracy_eq {x : Binary} (hx : x.IsDouble) {m : ℕ} {e : ℤ} {accuracy : Accuracy}
    {v : ℚ} (h : Represents (.ofMantissaAndAccuracy m accuracy) (v / 2 ^ e)) (hv : x.Denotes v)
    (he : e ≤ max (m.log2 + e - 52) (-1074)) (s : UnpackedFloat.Sign) :
    roundWithAccuracy Format.binary64 s m e accuracy =
      .finite s x.significand x.exponent hx.pos := by
  -- the result, once the mantissa and the exponent after the second shift are known
  have hresult : ∀ p : ExtendedMantissa × ℤ, p.1.mantissa = x.significand → p.2 = x.exponent →
      (if h : p.1.mantissa = 0 then UnpackedFloat.zero s
        else .finite s p.1.mantissa p.2 (Nat.pos_of_ne_zero h)) =
        .finite s x.significand x.exponent hx.pos := by
    rintro ⟨⟨m', r', s'⟩, e'⟩ hm he
    dsimp only at hm he
    subst hm he
    exact dif_neg hx.pos.ne'
  have hcases := h.targetExponent_cases hx hv rfl he
  obtain ⟨hexponent, hfirst⟩ := h.shiftToExponent he
  rw [← targetExponent_eq] at hexponent hfirst hcases
  have hrounded := hfirst.roundsTo
  unfold roundWithAccuracy shiftToTargetExponent
  dsimp only
  rw [hexponent]
  change dite _ _ _ = _
  generalize Format.binary64.targetExponent (totalExponent m e) = t at *
  rcases hcases with rfl | ⟨rfl, hpower, hnarrow, hlt⟩
  · have hshift := shiftToTargetExponent_of_lt hx.lt hx.exponent
    rw [hrounded.unique hv.roundsTo]
    exact hresult (shiftToTargetExponent Format.binary64 x.significand x.exponent .exact) hshift.1
      hshift.2
  · -- the number is below a power of two to which it is rounded up
    have hexponent := (hx.narrow.mp hnarrow).2
    have hshift := shiftToTargetExponent_carry (t := x.exponent - 1) (by omega)
    rw [hrounded.unique (hv.roundsTo_carry hpower hnarrow hlt)]
    refine hresult (shiftToTargetExponent Format.binary64 (2 ^ 53) (x.exponent - 1) .exact) ?_ ?_
    · rw [hshift.1, hpower]
    · rw [hshift.2]
      omega

/-! ## Products and quotients -/

theorem mul_eq {x : Binary} (hx : x.IsDouble) {m₁ m₂ : ℕ} {e₁ e₂ : ℤ} {h₁ : 0 < m₁} {h₂ : 0 < m₂}
    (hbits : 2 ^ 52 ≤ m₁ * m₂) (hv : x.Denotes (m₁ * 2 ^ e₁ * (m₂ * 2 ^ e₂))) :
    mul Format.binary64 (.finite .positive m₁ e₁ h₁) (.finite .positive m₂ e₂ h₂) =
      .finite .positive x.significand x.exponent hx.pos := by
  have hlog : 52 ≤ (m₁ * m₂).log2 := (Nat.le_log2 (Nat.mul_pos h₁ h₂).ne').mpr hbits
  refine roundWithAccuracy_eq hx (.exact ?_) hv (by omega) .positive
  rw [div_eq_iff (Binary.two_zpow_pos _).ne', zpow_add₀ two_ne_zero]
  push_cast
  ring

/-- The quotient of two natural numbers, and how its remainder compares with one half. -/
theorem represents_quotient (a : ℕ) {b : ℕ} (hb : 0 < b) :
    Represents (.ofMantissaAndAccuracy (a / b) (accuracyOfFraction (a % b) b)) (a / b) := by
  have hpos : (0 : ℚ) < b := by exact_mod_cast hb
  have hdiv : (a : ℚ) = b * (a / b : ℕ) + (a % b : ℕ) := by
    exact_mod_cast (Nat.div_add_mod a b).symm
  have hmod : ((a % b : ℕ) : ℚ) < b := by exact_mod_cast Nat.mod_lt a hb
  unfold accuracyOfFraction
  split
  · rename_i hzero
    refine .exact ?_
    rw [div_eq_iff hpos.ne', hdiv, hzero]
    push_cast
    ring
  · rename_i hzero
    have hrest : (0 : ℚ) < (a % b : ℕ) := by exact_mod_cast Nat.pos_of_ne_zero hzero
    rcases lt_trichotomy (2 * (a % b)) b with hlt | heq | hgt
    · have hcast : (2 : ℚ) * (a % b : ℕ) < b := by exact_mod_cast hlt
      rw [Nat.compare_eq_lt.mpr hlt]
      refine .low ?_ ?_
      · rw [lt_div_iff₀ hpos]
        linarith
      · rw [div_lt_iff₀ hpos]
        linarith
    · have hcast : (2 : ℚ) * (a % b : ℕ) = b := by exact_mod_cast heq
      rw [Nat.compare_eq_eq.mpr heq]
      refine .half ?_
      rw [div_eq_iff hpos.ne']
      linarith
    · have hcast : (b : ℚ) < 2 * (a % b : ℕ) := by exact_mod_cast hgt
      rw [Nat.compare_eq_gt.mpr hgt]
      refine .high ?_ ?_
      · rw [lt_div_iff₀ hpos]
        linarith
      · rw [div_lt_iff₀ hpos]
        linarith

/-- Enough digits are shifted in for the quotient to have 53 of them. -/
theorem two_pow_le_quotient {m₁ m₂ k : ℕ} (h₁ : 0 < m₁) (h₂ : 0 < m₂)
    (hk : 53 + m₂.log2 ≤ m₁.log2 + k) : 2 ^ 52 ≤ (m₁ <<< k) / m₂ := by
  rw [Nat.le_div_iff_mul_le h₂, Nat.shiftLeft_eq]
  calc 2 ^ 52 * m₂ ≤ 2 ^ 52 * 2 ^ (m₂.log2 + 1) := Nat.mul_le_mul_left _ Nat.lt_log2_self.le
    _ = 2 ^ (53 + m₂.log2) := by rw [← pow_add]; congr 1; omega
    _ ≤ 2 ^ (m₁.log2 + k) := Nat.pow_le_pow_right (by decide) hk
    _ = 2 ^ m₁.log2 * 2 ^ k := pow_add 2 _ _
    _ ≤ m₁ * 2 ^ k := Nat.mul_le_mul_right _ (Nat.log2_self_le h₁.ne')

theorem div_eq {x : Binary} (hx : x.IsDouble) {m₁ m₂ : ℕ} {e₁ e₂ : ℤ} {h₁ : 0 < m₁} {h₂ : 0 < m₂}
    (hv : x.Denotes (m₁ * 2 ^ e₁ / (m₂ * 2 ^ e₂))) :
    div Format.binary64 (.finite .positive m₁ e₁ h₁) (.finite .positive m₂ e₂ h₂) =
      .finite .positive x.significand x.exponent hx.pos := by
  have htarget : Format.binary64.targetExponent (totalExponent m₁ e₁ - totalExponent m₂ e₂) =
      max (m₁.log2 + e₁ - (m₂.log2 + e₂) - 53) (-1074) := by
    simp only [Format.targetExponent, totalExponent, Format.mantissaBits, Format.minExponent]
    omega
  unfold UnpackedFloat.div divCore
  dsimp only
  rw [htarget]
  generalize ht : min (e₁ - e₂) (max (m₁.log2 + e₁ - (m₂.log2 + e₂) - 53) (-1074)) = t
  refine roundWithAccuracy_eq hx ?_ hv ?_ .positive
  · -- the quotient of the mantissas, after the shift
    have hsum : e₁ = t + (e₁ - e₂ - t).toNat + e₂ := by omega
    have hquotient : (m₁ : ℚ) * 2 ^ e₁ / (m₂ * 2 ^ e₂) / 2 ^ t =
        ((m₁ <<< (e₁ - e₂ - t).toNat : ℕ) : ℚ) / m₂ := by
      generalize (e₁ - e₂ - t).toNat = k at hsum
      rw [hsum, Nat.shiftLeft_eq, zpow_add₀ two_ne_zero, zpow_add₀ two_ne_zero, zpow_natCast]
      have ht := (Binary.two_zpow_pos t).ne'
      have he := (Binary.two_zpow_pos e₂).ne'
      have hm : (m₂ : ℚ) ≠ 0 := by exact_mod_cast h₂.ne'
      push_cast
      field_simp
    rw [hquotient]
    exact represents_quotient _ h₂
  · by_cases hleast : t ≤ -1074
    · omega
    · have hbits := two_pow_le_quotient (k := (e₁ - e₂ - t).toNat) h₁ h₂ (by omega)
      have hlog := (Nat.le_log2 (by omega)).mpr hbits
      omega

end Residual.Decimal
