import Residual.Proofs.Shortest

/-!
# Numbers in the range of doubles

A number from one on rounds to a double as long as it is below a bound, which lies halfway between
the largest double and the power of two after it. The double is above the number by half a unit at
most. So the product of two doubles is finite if the exact product is below the bound, and a word
of 64 bits becomes a double that is hardly larger.

* `Binary.exists_denotes`: the double to which a number rounds.
* `hasValue_word`: the double that a word becomes.
* `isFinite_mul`: products that are finite.
-/

namespace Residual.Decimal

open Float.Model Float.Model.UnpackedFloat

/-! ## The double to which a number rounds -/

theorem exists_roundsTo {y : ℚ} (hy : 0 ≤ y) : ∃ m, RoundsTo y m := by
  have hle := Nat.floor_le hy
  have hlt := Nat.lt_floor_add_one y
  rcases lt_trichotomy y (⌊y⌋₊ + 1 / 2) with h | h | h
  · exact ⟨⌊y⌋₊, Or.inl ⟨by linarith, h⟩⟩
  · -- of the two neighbours, the even one is taken
    rcases Nat.mod_two_eq_zero_or_one ⌊y⌋₊ with heven | hodd
    · exact ⟨⌊y⌋₊, Or.inr ⟨heven, Or.inr h⟩⟩
    · refine ⟨⌊y⌋₊ + 1, Or.inr ⟨by omega, Or.inl ?_⟩⟩
      push_cast
      linarith
  · refine ⟨⌊y⌋₊ + 1, Or.inl ?_⟩
    push_cast
    constructor <;> linarith

theorem RoundsTo.sub_le {y : ℚ} {m : ℕ} (h : RoundsTo y m) : m - 1 / 2 ≤ y := by
  rcases h with ⟨h, -⟩ | ⟨-, h | h⟩ <;> linarith

theorem RoundsTo.le_add {y : ℚ} {m : ℕ} (h : RoundsTo y m) : y ≤ m + 1 / 2 := by
  rcases h with ⟨-, h⟩ | ⟨-, h | h⟩ <;> linarith

/-- Whole numbers are not passed by rounding. -/
theorem RoundsTo.natural_le {y : ℚ} {m n : ℕ} (h : RoundsTo y m) (hn : n ≤ y) : n ≤ m := by
  by_contra hlt
  have hcast : (m : ℚ) + 1 ≤ n := by exact_mod_cast Nat.lt_of_not_le hlt
  linarith [h.le_add]

theorem RoundsTo.le_natural {y : ℚ} {m n : ℕ} (h : RoundsTo y m) (hn : y ≤ n) : m ≤ n := by
  by_contra hgt
  have hcast : (n : ℚ) + 1 ≤ m := by exact_mod_cast Nat.lt_of_not_le hgt
  linarith [h.sub_le]

theorem two_pow_eq_mul {k n : ℕ} {t : ℤ} (h : (k : ℤ) = n + t) : (2 : ℚ) ^ k = 2 ^ n * 2 ^ t := by
  rw [← zpow_natCast, ← zpow_natCast, ← zpow_add₀ two_ne_zero, h]

namespace Binary

/-- The gap below a power of two does not matter for the numbers above it. -/
theorem denotes_of_roundsTo {x : Binary} {z : ℚ} (h : RoundsTo z x.significand)
    (hnarrow : x.narrowBelow = true → (x.significand : ℚ) ≤ z) :
    x.Denotes (z * 2 ^ x.exponent) := by
  have hpos := two_zpow_pos x.exponent
  unfold Denotes lower upper
  simp only [mul_lt_mul_iff_left₀ hpos, mul_left_inj' hpos.ne']
  by_cases hbelow : x.narrowBelow = true
  · have hle := hnarrow hbelow
    rw [if_pos hbelow]
    rcases h with ⟨-, hupper⟩ | ⟨heven, hz | hz⟩
    · exact Or.inl ⟨by linarith, hupper⟩
    · linarith
    · exact Or.inr ⟨heven, Or.inr hz⟩
  · rw [if_neg hbelow]
    exact h

/-- The double with 53 digits `m` and exponent `t`, which is not the least one. -/
def normal (m : ℕ) (t : ℤ) : Binary := ⟨m, t, decide (m = 2 ^ 52)⟩

theorem isDouble_normal {m : ℕ} {t : ℤ} (hlow : 2 ^ 52 ≤ m) (hhigh : m < 2 ^ 53) (ht : -1074 < t) :
    (normal m t).IsDouble := by
  refine ⟨Nat.lt_of_lt_of_le (by decide) hlow, hhigh, ht.le, Or.inl hlow, ?_⟩
  change decide (m = 2 ^ 52) = true ↔ m = 2 ^ 52 ∧ -1074 < t
  rw [decide_eq_true_iff, and_iff_left ht]

/-- A number that is rounded up to a power of two is the nearest one from below. -/
theorem denotes_carry {z : ℚ} {t : ℤ} (h : RoundsTo z (2 ^ 53)) (hlt : z < 2 ^ 53) :
    (normal (2 ^ 52) (t + 1)).Denotes (z * 2 ^ t) := by
  have hpos := two_zpow_pos t
  have hle := h.sub_le
  have hpow : (2 : ℚ) ^ (t + 1) = 2 * 2 ^ t := by rw [zpow_add_one₀ two_ne_zero, mul_comm]
  have hlower : (normal (2 ^ 52) (t + 1)).lower = (2 ^ 53 - 1 / 2) * 2 ^ t := by
    change (((2 ^ 52 : ℕ) : ℚ) - 1 / 4) * 2 ^ (t + 1) = _
    rw [hpow]
    push_cast
    ring
  have hupper : (normal (2 ^ 52) (t + 1)).upper = (2 ^ 53 + 1) * 2 ^ t := by
    change (((2 ^ 52 : ℕ) : ℚ) + 1 / 2) * 2 ^ (t + 1) = _
    rw [hpow]
    push_cast
    ring
  unfold Denotes
  rw [hlower, hupper]
  simp only [mul_lt_mul_iff_left₀ hpos, mul_left_inj' hpos.ne']
  push_cast at hle
  rcases hle.eq_or_lt with heq | hgt
  · exact Or.inr ⟨(by decide : 2 ^ 52 % 2 = 0), Or.inl heq.symm⟩
  · exact Or.inl ⟨hgt, by linarith⟩

/-- With 53 digits before the point, a number rounds to a double whose last digit is at the point,
or to the power of two after them. -/
theorem exists_denotes_of_digits {z : ℚ} {t : ℤ} (hlow : 2 ^ 52 ≤ z) (hhigh : z < 2 ^ 53)
    (ht : -1074 < t) :
    ∃ x : Binary, x.IsDouble ∧ x.Denotes (z * 2 ^ t) ∧ 2 ^ 52 ≤ x.significand ∧
      (t ≤ x.exponent ∧ x.exponent ≤ t + 1) ∧ x.value ≤ (z + 1 / 2) * 2 ^ t ∧
      (z < 2 ^ 53 - 1 / 2 → x.exponent = t) := by
  have hpos := two_zpow_pos t
  obtain ⟨m, hm⟩ := exists_roundsTo (le_trans (by positivity) hlow)
  have hmlow : 2 ^ 52 ≤ m := hm.natural_le (by exact_mod_cast hlow)
  have hmhigh : m ≤ 2 ^ 53 := hm.le_natural (by exact_mod_cast hhigh.le)
  have hvalue : (m : ℚ) * 2 ^ t ≤ (z + 1 / 2) * 2 ^ t :=
    mul_le_mul_of_nonneg_right (by linarith [hm.sub_le]) hpos.le
  rcases hmhigh.eq_or_lt with rfl | hmlt
  · refine ⟨normal (2 ^ 52) (t + 1), isDouble_normal (by decide) (by decide) (by omega),
      denotes_carry hm hhigh, Nat.le_refl _, ⟨(lt_add_one t).le, le_refl _⟩, ?_, fun hlt => ?_⟩
    · refine le_trans (le_of_eq ?_) hvalue
      change ((2 ^ 52 : ℕ) : ℚ) * 2 ^ (t + 1) = _
      rw [zpow_add_one₀ two_ne_zero]
      push_cast
      ring
    · have hsub := hm.sub_le
      push_cast at hsub
      linarith
  · refine ⟨normal m t, isDouble_normal hmlow hmlt ht, denotes_of_roundsTo hm fun hnarrow => ?_,
      hmlow, ⟨le_refl _, (lt_add_one t).le⟩, hvalue, fun _ => rfl⟩
    change (m : ℚ) ≤ z
    rw [of_decide_eq_true hnarrow]
    exact_mod_cast hlow

/-- The bound from which on numbers round to infinity. -/
def rangeBound : ℚ := (2 ^ 53 - 1 / 2) * 2 ^ (971 : ℤ)

theorem rangeBound_le : rangeBound ≤ 2 ^ 1024 := by
  have hpos := two_zpow_pos 971
  calc rangeBound ≤ 2 ^ 53 * 2 ^ (971 : ℤ) := mul_le_mul_of_nonneg_right (by linarith) hpos.le
    _ = 2 ^ 1024 := (two_pow_eq_mul rfl).symm

/-- A number between two powers of two rounds to a double whose last digit is at the 53rd place. -/
theorem exists_denotes {y : ℚ} {k : ℕ} (hlow : 2 ^ k ≤ y) (hhigh : y < 2 ^ (k + 1)) :
    ∃ x : Binary, x.IsDouble ∧ x.Denotes y ∧ 2 ^ 52 ≤ x.significand ∧ -52 ≤ x.exponent ∧
      x.value ≤ y + 2 ^ ((k : ℤ) - 53) ∧ (y < rangeBound → x.exponent ≤ 971) := by
  obtain ⟨t, ht⟩ : ∃ t : ℤ, t = (k : ℤ) - 52 := ⟨_, rfl⟩
  have hpos := two_zpow_pos t
  obtain ⟨z, rfl⟩ : ∃ z, y = z * 2 ^ t := ⟨y / 2 ^ t, (div_mul_cancel₀ y hpos.ne').symm⟩
  have hzlow : (2 : ℚ) ^ 52 ≤ z := by
    refine le_of_mul_le_mul_right (le_of_eq_of_le (two_pow_eq_mul ?_).symm hlow) hpos
    omega
  have hzhigh : z < 2 ^ 53 := by
    refine lt_of_mul_lt_mul_right (lt_of_lt_of_eq hhigh (two_pow_eq_mul ?_)) hpos.le
    omega
  have hleast : -1074 < t := by omega
  obtain ⟨x, hx, hdenotes, hbits, ⟨hle, hge⟩, hvalue, hexponent⟩ :=
    exists_denotes_of_digits hzlow hzhigh hleast
  refine ⟨x, hx, hdenotes, hbits, by omega, le_of_le_of_eq hvalue ?_, fun hlt => ?_⟩
  · rw [add_mul, show (k : ℤ) - 53 = -1 + t by omega, zpow_add₀ two_ne_zero]
    norm_num
  · have hpowers := (pow_lt_pow_iff_right₀ (one_lt_two : (1 : ℚ) < 2)).mp
      (lt_of_le_of_lt hlow (lt_of_lt_of_le hlt rangeBound_le))
    by_contra hgt
    -- with the largest exponent the bound is where rounding up begins
    obtain rfl : t = 971 := by omega
    exact hgt (hexponent (lt_of_mul_lt_mul_right hlt hpos.le)).le

theorem one_le_value {x : Binary} (hbits : 2 ^ 52 ≤ x.significand) (hleast : -52 ≤ x.exponent) :
    1 ≤ x.value := by
  calc (1 : ℚ) = 2 ^ 52 * 2 ^ (-52 : ℤ) := by norm_num
    _ ≤ x.significand * 2 ^ x.exponent := by
      gcongr
      · exact_mod_cast hbits
      · exact one_le_two

theorem hasValue_float {x : Binary} (hx : x.IsDouble) (hexponent : x.exponent ≤ 971)
    (hbits : 2 ^ 52 ≤ x.significand) : HasValue (x.float hx .positive) x.value :=
  ⟨x.significand, x.exponent, hx.pos, unpack_float hx hexponent .positive, hbits, rfl⟩

end Binary

open Binary

/-! ## Words -/

/-- The double that a word becomes is above it by half a unit at most. -/
theorem hasValue_word {m k : ℕ} (hlow : 2 ^ k ≤ m) (hhigh : m < 2 ^ (k + 1)) (hk : k < 64) :
    ∃ v, HasValue m.toUInt64.toFloat v ∧ 1 ≤ v ∧ v ≤ m + 2 ^ ((k : ℤ) - 53) := by
  have hpos : 0 < m := Nat.lt_of_lt_of_le (Nat.two_pow_pos k) hlow
  have hword : m < 2 ^ 64 := Nat.lt_of_lt_of_le hhigh (Nat.pow_le_pow_right (by decide) hk)
  have hrange : (m : ℚ) < rangeBound := by
    have hunit : (2 : ℚ) ^ (12 : ℤ) ≤ 2 ^ (971 : ℤ) := zpow_le_zpow_right₀ one_le_two (by decide)
    calc (m : ℚ) < 2 ^ 64 := by exact_mod_cast hword
      _ ≤ (2 ^ 53 - 1 / 2) * 2 ^ (12 : ℤ) := by norm_num
      _ ≤ rangeBound := mul_le_mul_of_nonneg_left hunit (by norm_num)
  have hlow' : (2 : ℚ) ^ k ≤ m := by exact_mod_cast hlow
  have hhigh' : (m : ℚ) < 2 ^ (k + 1) := by exact_mod_cast hhigh
  obtain ⟨x, hx, hdenotes, hbits, hleast, hvalue, hexponent⟩ := exists_denotes hlow' hhigh'
  have hfloat : m.toUInt64.toFloat = x.float hx .positive := by
    change Float.ofModel (.pack (UnpackedFloat.ofInt _ (m.toUInt64.toNat : ℤ))) = _
    rw [show m.toUInt64.toNat = m from Nat.mod_eq_of_lt hword, ofInt_eq hx hpos hdenotes]
    rfl
  rw [hfloat]
  exact ⟨x.value, hasValue_float hx (hexponent hrange) hbits, one_le_value hbits hleast, hvalue⟩

/-! ## Products -/

theorem isFinite_mul {c d : Float} {v w : ℚ} (hc : HasValue c v) (hd : HasValue d w)
    (hone : 1 ≤ v * w) (hlt : v * w < rangeBound) : (c * d).isFinite = true := by
  obtain ⟨k, hlow, hhigh⟩ := exists_nat_pow_near hone one_lt_two
  obtain ⟨x, hx, hdenotes, -, -, -, hexponent⟩ := exists_denotes hlow hhigh
  rw [mul_eq_float hx hc hd hdenotes]
  change (x.float hx .positive).toModel.unpack.isFinite = true
  rw [unpack_float hx (hexponent hlt)]
  rfl

end Residual.Decimal
