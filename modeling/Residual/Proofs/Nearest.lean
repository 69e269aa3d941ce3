import Residual.Decimal.Numeral
import Residual.Proofs.Doubles
import Residual.Proofs.Numeral

/-!
# The double nearest to a numeral

Digits and a power of ten are read by one multiplication or division. If the digits and the power
are doubles themselves the operation is that of doubles, and else it is made on their exact values;
either way the exact result is rounded once. So a numeral is read as the double that its value
rounds to.

* `HasValue`: a double with the value of a natural number or of a power of ten.
* `ofScientific_eq`: digits and a power of ten are read as the double they denote.
* `Numeral.magnitude_eq`: so are the digits of a numeral.
-/

namespace Residual.Decimal

open Float.Model Float.Model.UnpackedFloat

/-! ## Powers with signed exponents -/

/-- A power with a signed exponent is a quotient of powers. -/
theorem zpow_eq_div {a : ℚ} (ha : a ≠ 0) (e : ℤ) : a ^ e = a ^ e.toNat / a ^ (-e).toNat := by
  rw [← zpow_natCast, ← zpow_natCast, ← zpow_sub₀ ha]
  congr 1
  omega

theorem ten_zpow_pos (e : ℤ) : (0 : ℚ) < 10 ^ e := zpow_pos (by norm_num) e

theorem zpow_le_zpow_of_nonpos {a c : ℚ} {e : ℤ} (ha : 0 < a) (hac : a ≤ c) (he : e ≤ 0) :
    c ^ e ≤ a ^ e := by
  have hinv := inv_anti₀ (zpow_pos ha (-e))
    (zpow_le_zpow_left₀ (Int.neg_nonneg_of_nonpos he) ha.le hac)
  rwa [← zpow_neg, ← zpow_neg, neg_neg] at hinv

theorem two_zpow_le_ten {e : ℤ} (he : 0 ≤ e) : (2 : ℚ) ^ e ≤ 10 ^ e :=
  zpow_le_zpow_left₀ he (by norm_num) (by norm_num)

theorem ten_zpow_le_two {e : ℤ} (he : e ≤ 0) : (10 : ℚ) ^ e ≤ 2 ^ e :=
  zpow_le_zpow_of_nonpos two_pos (by norm_num) he

/-! ## Natural numbers as doubles -/

namespace Binary

theorem denotes_self (x : Binary) : x.Denotes (x.significand * 2 ^ x.exponent) := by
  have hpos := two_zpow_pos x.exponent
  left
  unfold lower upper
  constructor
  · refine mul_lt_mul_of_pos_right ?_ hpos
    split <;> linarith
  · exact mul_lt_mul_of_pos_right (by linarith) hpos

/-- A natural number is rounded once. -/
theorem ofInt_eq {x : Binary} (hx : x.IsDouble) {m : ℕ} (hm : 0 < m) (hv : x.Denotes m) :
    UnpackedFloat.ofInt Format.binary64 m =
      .finite .positive x.significand x.exponent hx.pos := by
  obtain ⟨shift, hshift⟩ : ∃ shift, shift = 52 - m.log2 := ⟨_, rfl⟩
  have hbits : 2 ^ 52 ≤ m * 2 ^ shift := by
    calc 2 ^ 52 ≤ 2 ^ (m.log2 + shift) := Nat.pow_le_pow_right (by decide) (by omega)
      _ = 2 ^ m.log2 * 2 ^ shift := pow_add 2 _ _
      _ ≤ m * 2 ^ shift := Nat.mul_le_mul_right _ (Nat.log2_self_le hm.ne')
  have hlog : 52 ≤ (m * 2 ^ shift).log2 :=
    (Nat.le_log2 (Nat.mul_pos hm (Nat.two_pow_pos shift)).ne').mpr hbits
  have htarget : (0 - max ((m.log2 : ℤ) + 0 - 52) (-1074)).toNat = shift := by omega
  unfold UnpackedFloat.ofInt UnpackedFloat.normalize
  rw [show compare (m : ℤ) 0 = .gt from Int.compare_eq_gt.mpr (by omega)]
  dsimp only
  unfold UnpackedFloat.round decreaseExponent
  dsimp only
  rw [targetExponent_eq, Int.toNat_natCast, htarget, Nat.shiftLeft_eq, Int.zero_sub]
  refine roundWithAccuracy_eq hx (.exact ?_) hv (by omega) .positive
  rw [zpow_neg, div_inv_eq_mul, zpow_natCast]
  push_cast
  rfl

/-- A natural number as a double, where `shift` digits are put at its end. -/
def ofNatural (m shift : ℕ) : Binary :=
  ⟨m * 2 ^ shift, -shift, decide (m * 2 ^ shift = 2 ^ 52)⟩

theorem value_ofNatural (m shift : ℕ) :
    ((ofNatural m shift).significand * 2 ^ (ofNatural m shift).exponent : ℚ) = m := by
  change ((m * 2 ^ shift : ℕ) : ℚ) * 2 ^ (-(shift : ℤ)) = m
  push_cast
  rw [zpow_neg, zpow_natCast, mul_inv_cancel_right₀ (pow_ne_zero shift two_ne_zero)]

section

variable {m shift : ℕ} (hpos : 0 < m) (hshift : m.log2 + shift = 52)

include hpos hshift

theorem two_pow_le_ofNatural : 2 ^ 52 ≤ (ofNatural m shift).significand := by
  calc 2 ^ 52 = 2 ^ m.log2 * 2 ^ shift := by rw [← pow_add, hshift]
    _ ≤ m * 2 ^ shift := Nat.mul_le_mul_right _ (Nat.log2_self_le hpos.ne')

theorem isDouble_ofNatural : (ofNatural m shift).IsDouble := by
  have hlow := two_pow_le_ofNatural hpos hshift
  have hhigh : m * 2 ^ shift < 2 ^ 53 := by
    calc m * 2 ^ shift < 2 ^ (m.log2 + 1) * 2 ^ shift :=
          Nat.mul_lt_mul_of_pos_right Nat.lt_log2_self (Nat.two_pow_pos shift)
      _ = 2 ^ 53 := by rw [← pow_add]; congr 1; omega
  refine ⟨Nat.lt_of_lt_of_le (by decide) hlow, hhigh, ?_, Or.inl hlow, ?_⟩
  · change (-1074 : ℤ) ≤ -shift
    omega
  · change decide (m * 2 ^ shift = 2 ^ 52) = true ↔
      m * 2 ^ shift = 2 ^ 52 ∧ (-1074 : ℤ) < -shift
    rw [decide_eq_true_iff]
    omega

/-- A number that has no more than 53 digits in base two is converted without rounding. -/
theorem ofInt_natural : UnpackedFloat.ofInt Format.binary64 m =
    .finite .positive (ofNatural m shift).significand (ofNatural m shift).exponent
      (isDouble_ofNatural hpos hshift).pos := by
  refine ofInt_eq (isDouble_ofNatural hpos hshift) hpos ?_
  rw [← value_ofNatural m shift]
  exact denotes_self _

end

end Binary

/-! ## Digits and powers that are doubles -/

/-- The model of a double is a positive number with 53 digits in base two, whose value this is. -/
def HasValue (d : Float) (v : ℚ) : Prop :=
  ∃ m e, ∃ h : 0 < m, d.toModel.unpack = .finite .positive m e h ∧ 2 ^ 52 ≤ m ∧ v = m * 2 ^ e

theorem hasValue_natural {m : ℕ} (hpos : 0 < m) (hm : m < 2 ^ 53) :
    HasValue m.toUInt64.toFloat m := by
  have hlog : m.log2 < 53 := (Nat.log2_lt hpos.ne').mpr hm
  obtain ⟨shift, hshift⟩ : ∃ shift, m.log2 + shift = 52 := ⟨52 - m.log2, by omega⟩
  have hword : m.toUInt64.toNat = m := Nat.mod_eq_of_lt (Nat.lt_trans hm (by decide))
  have hx := Binary.isDouble_ofNatural hpos hshift
  refine ⟨_, (Binary.ofNatural m shift).exponent, hx.pos, ?_,
    Binary.two_pow_le_ofNatural hpos hshift, ?_⟩
  · change UnpackedFloat.unpack _
      (UnpackedFloat.pack _ (UnpackedFloat.ofInt _ (m.toUInt64.toNat : ℤ))) = _
    rw [hword, Binary.ofInt_natural hpos hshift]
    refine unpack_pack hx ?_ .positive
    change -(shift : ℤ) ≤ 971
    omega
  · exact (Binary.value_ofNatural m shift).symm

/-- The entry of a table is a number with 53 digits in base two, and this power of ten. -/
def isPowerOfTen (d : Float) (e : ℕ) : Bool :=
  match d.toModel.unpack with
  | .finite .positive m q _ => 2 ^ 52 ≤ m ∧ m * 2 ^ q.toNat = 10 ^ e * 2 ^ (-q).toNat
  | _ => false

theorem isPowerOfTen_table : ∀ (e : ℕ) (_ : e < Float.exactlyRepresentablePowersOfTen.size),
    isPowerOfTen Float.exactlyRepresentablePowersOfTen[e] e = true := by
  decide +kernel

theorem hasValue_of_isPowerOfTen {d : Float} {e : ℕ} (h : isPowerOfTen d e = true) :
    HasValue d (10 ^ e) := by
  unfold isPowerOfTen at h
  split at h
  · rename_i m q hpos hunpack
    obtain ⟨hm, hvalue⟩ := of_decide_eq_true h
    refine ⟨m, q, hpos, hunpack, hm, ?_⟩
    have hcast : (m : ℚ) * 2 ^ q.toNat = 10 ^ e * 2 ^ (-q).toNat := by exact_mod_cast hvalue
    rw [zpow_eq_div two_ne_zero, mul_div_assoc', hcast]
    exact (mul_div_cancel_right₀ _ (pow_ne_zero _ two_ne_zero)).symm
  · cases h

theorem mul_eq_float {x : Binary} (hx : x.IsDouble) {c d : Float} {v w : ℚ} (hc : HasValue c v)
    (hd : HasValue d w) (hv : x.Denotes (v * w)) : c * d = x.float hx .positive := by
  obtain ⟨m, e, hm, hc, hbits, rfl⟩ := hc
  obtain ⟨n, f, hn, hd, hbits', rfl⟩ := hd
  change Float.ofModel (.pack (.mul Format.binary64 c.toModel.unpack d.toModel.unpack)) = _
  rw [hc, hd, mul_eq hx (le_trans hbits (Nat.le_mul_of_pos_right m hn)) hv]
  rfl

theorem div_eq_float {x : Binary} (hx : x.IsDouble) {c d : Float} {v w : ℚ} (hc : HasValue c v)
    (hd : HasValue d w) (hv : x.Denotes (v / w)) : c / d = x.float hx .positive := by
  obtain ⟨m, e, hm, hc, hbits, rfl⟩ := hc
  obtain ⟨n, f, hn, hd, hbits', rfl⟩ := hd
  change Float.ofModel (.pack (.div Format.binary64 c.toModel.unpack d.toModel.unpack)) = _
  rw [hc, hd, div_eq hx hv]
  rfl

/-! ## Digits and a power of ten -/

namespace Binary.IsDouble

variable {x : Binary} (hx : x.IsDouble) {v : ℚ} (hv : x.Denotes v)

include hx hv

/-- What rounds to a double is at least half the least one. -/
theorem two_zpow_le : 2 ^ (-1075 : ℤ) ≤ v := by
  have hone : (1 : ℚ) ≤ x.significand := by exact_mod_cast hx.pos
  refine le_trans ?_ (le_trans x.half_le_lower hv.lower_le)
  calc (2 : ℚ) ^ (-1075 : ℤ) = 1 / 2 * 2 ^ (-1074 : ℤ) := by
        rw [show (-1075 : ℤ) = -1 + -1074 from rfl, zpow_add₀ two_ne_zero]
        norm_num
    _ ≤ 1 / 2 * 2 ^ x.exponent := by
        refine mul_le_mul_of_nonneg_left (zpow_le_zpow_right₀ one_le_two hx.exponent) (by norm_num)
    _ ≤ (x.significand - 1 / 2) * 2 ^ x.exponent :=
        mul_le_mul_of_nonneg_right (by linarith) (two_zpow_pos _).le

theorem le_two_zpow (hexponent : x.exponent ≤ 971) : v ≤ 2 ^ (1024 : ℤ) := by
  have hsig : (x.significand : ℚ) + 1 ≤ 2 ^ 53 := by exact_mod_cast hx.lt
  refine le_trans hv.le_upper ?_
  calc ((x.significand : ℚ) + 1 / 2) * 2 ^ x.exponent ≤ 2 ^ 53 * 2 ^ x.exponent :=
        mul_le_mul_of_nonneg_right (by linarith) (two_zpow_pos _).le
    _ ≤ 2 ^ 53 * 2 ^ (971 : ℤ) :=
        mul_le_mul_of_nonneg_left (zpow_le_zpow_right₀ one_le_two hexponent) (by norm_num)
    _ = 2 ^ (1024 : ℤ) := by
        rw [← zpow_natCast, ← zpow_add₀ two_ne_zero]
        rfl

end Binary.IsDouble

theorem Binary.IsDouble.natural_pos {x : Binary} (hx : x.IsDouble) {m : ℕ} {c : ℚ}
    (hv : x.Denotes (m * c)) : 0 < m := by
  refine Nat.pos_of_ne_zero fun hzero => ?_
  have hlow := hx.two_zpow_le hv
  rw [hzero, Nat.cast_zero, zero_mul] at hlow
  exact absurd hlow (Binary.two_zpow_pos _).not_ge

section

variable {x : Binary} (hx : x.IsDouble) (hexponent : x.exponent ≤ 971) {m : ℕ} {e : ℤ} (hm : 0 < m)
  (hv : x.Denotes (m * 10 ^ e))

include hx hm hv

theorem exponent_le_of_denotes (hexponent : x.exponent ≤ 971) : e ≤ 1024 := by
  by_contra hlt
  have hone : (1 : ℚ) ≤ m := by exact_mod_cast hm
  have hpos : (0 : ℚ) < 10 ^ e := ten_zpow_pos e
  have hle : (2 : ℚ) ^ e ≤ 2 ^ (1024 : ℤ) := by
    calc (2 : ℚ) ^ e ≤ 10 ^ e := two_zpow_le_ten (by omega)
      _ ≤ m * 10 ^ e := le_mul_of_one_le_left hpos.le hone
      _ ≤ 2 ^ (1024 : ℤ) := hx.le_two_zpow hv hexponent
  have hexponents := (zpow_le_zpow_iff_right₀ one_lt_two).mp hle
  omega

omit hm in
theorem le_exponent_of_denotes : -1076 ≤ e + m.log2 := by
  by_contra hlt
  have hlog : (m : ℚ) < 2 ^ (m.log2 + 1) := by exact_mod_cast Nat.lt_log2_self
  have hpos : (0 : ℚ) < 10 ^ e := ten_zpow_pos e
  have hlt' : (2 : ℚ) ^ (-1075 : ℤ) < 2 ^ ((m.log2 + 1 : ℕ) + e) := by
    calc (2 : ℚ) ^ (-1075 : ℤ) ≤ m * 10 ^ e := hx.two_zpow_le hv
      _ < 2 ^ (m.log2 + 1) * 10 ^ e := mul_lt_mul_of_pos_right hlog hpos
      _ ≤ 2 ^ (m.log2 + 1) * 2 ^ e :=
          mul_le_mul_of_nonneg_left (ten_zpow_le_two (by omega)) (by positivity)
      _ = 2 ^ ((m.log2 + 1 : ℕ) + e) := by rw [zpow_add₀ two_ne_zero, zpow_natCast]
  have hexponents := (zpow_lt_zpow_iff_right₀ one_lt_two).mp hlt'
  omega

theorem model_ofScientific_eq (hexponent : x.exponent ≤ 971) :
    UnpackedFloat.ofScientific Format.binary64 m e =
      .finite .positive x.significand x.exponent hx.pos := by
  have hlarge := exponent_le_of_denotes hx hm hv hexponent
  have hsmall := le_exponent_of_denotes hx hv
  have hbound : (2 : ℤ) ^ Format.binary64.exponentBits = 2048 := rfl
  unfold UnpackedFloat.ofScientific
  rw [dif_neg hm.ne', hbound, if_neg (by omega), if_neg (by omega)]
  split
  · rename_i he
    refine mul_eq hx ?_ ?_
    · rw [Nat.shiftLeft_eq]
      calc 2 ^ 52 ≤ 2 ^ 53 := by decide
        _ ≤ m * 2 ^ 53 := Nat.le_mul_of_pos_left _ hm
        _ ≤ m * 2 ^ 53 * 10 ^ e.toNat := Nat.le_mul_of_pos_right _ (Nat.pow_pos (by decide))
    · have hvalue : ((m <<< Format.binary64.mantissaBits : ℕ) : ℚ) *
          2 ^ (-(Format.binary64.mantissaBits : ℤ)) * ((10 ^ e.toNat : ℕ) * 2 ^ (0 : ℤ)) =
            m * 10 ^ e := by
        rw [Nat.shiftLeft_eq, zpow_neg, zpow_natCast, zpow_zero, mul_one]
        push_cast
        rw [mul_inv_cancel_right₀ (by positivity), ← zpow_natCast, Int.toNat_of_nonneg he]
      rwa [hvalue]
  · rename_i he
    have hvalue : (m : ℚ) * 2 ^ (0 : ℤ) / ((10 ^ (-e).toNat : ℕ) * 2 ^ (0 : ℤ)) = m * 10 ^ e := by
      rw [zpow_zero, mul_one, mul_one]
      push_cast
      rw [div_eq_mul_inv, ← zpow_natCast, ← zpow_neg, Int.toNat_of_nonneg (by omega), neg_neg]
    refine div_eq hx ?_
    rwa [hvalue]

theorem ofScientific_eq (hexponent : x.exponent ≤ 971) :
    Float.ofScientific m (e < 0) e.natAbs = x.float hx .positive := by
  unfold Float.ofScientific
  split
  · rename_i hfast
    have hnatural := hasValue_natural hm hfast.1
    have htable := isPowerOfTen_table e.natAbs (Nat.lt_succ_of_le hfast.2)
    have hpower := hasValue_of_isPowerOfTen htable
    dsimp only
    split
    · rename_i he
      refine div_eq_float hx hnatural hpower ?_
      have hneg : e = -(e.natAbs : ℤ) := by
        have hlt := of_decide_eq_true he
        omega
      rw [hneg, zpow_neg, zpow_natCast] at hv
      exact hv
    · rename_i he
      refine mul_eq_float hx hnatural hpower ?_
      have hnonneg : e = (e.natAbs : ℤ) := by
        have hle := of_decide_eq_false (Bool.eq_false_iff.mpr he)
        omega
      rw [hnonneg, zpow_natCast] at hv
      exact hv
  · have hsigned : (if decide (e < 0) = true then Int.negOfNat e.natAbs else Int.ofNat e.natAbs) =
        e := by
      split
      · rename_i he
        have hlt := of_decide_eq_true he
        rw [Int.negOfNat_eq]
        change -(e.natAbs : ℤ) = e
        omega
      · rename_i he
        have hle := of_decide_eq_false (Bool.eq_false_iff.mpr he)
        exact Int.natAbs_of_nonneg (by omega)
    dsimp only
    rw [hsigned]
    exact congrArg (fun u => Float.ofModel (.pack u)) (model_ofScientific_eq hx hm hv hexponent)

end

/-! ## Numerals -/

theorem two_zpow_lt_ten_zpow : (2 : ℚ) ^ (1075 : ℤ) < 10 ^ (400 : ℤ) := by
  have hnat : 2 ^ 1075 < 10 ^ 400 := by decide +kernel
  exact_mod_cast hnat

/-- The first digit of what rounds to a double stands near the point. -/
theorem bounds_of_denotes {x : Binary} (hx : x.IsDouble) (hexponent : x.exponent ≤ 971) {m k : ℕ}
    {e : ℤ} (hlower : 10 ^ k ≤ m) (hupper : m < 10 ^ (k + 1)) (hv : x.Denotes (m * 10 ^ e)) :
    -400 ≤ e + (k + 1 : ℕ) ∧ e + (k + 1 : ℕ) ≤ 400 := by
  have hpos : (0 : ℚ) < 10 ^ e := ten_zpow_pos e
  constructor
  · by_contra hlt
    have hcast : (m : ℚ) < 10 ^ (k + 1) := by exact_mod_cast hupper
    have htop : (2 : ℚ) ^ (-1075 : ℤ) < 10 ^ (-400 : ℤ) := by
      calc (2 : ℚ) ^ (-1075 : ℤ) ≤ m * 10 ^ e := hx.two_zpow_le hv
        _ < 10 ^ (k + 1) * 10 ^ e := mul_lt_mul_of_pos_right hcast hpos
        _ = 10 ^ ((k + 1 : ℕ) + e) := by rw [zpow_add₀ (by norm_num), zpow_natCast]
        _ ≤ 10 ^ (-400 : ℤ) := zpow_le_zpow_right₀ (by norm_num) (by omega)
    rw [zpow_neg, zpow_neg, inv_lt_inv₀ (by positivity) (by positivity)] at htop
    exact htop.not_gt two_zpow_lt_ten_zpow
  · by_contra hgt
    have hcast : (10 : ℚ) ^ k ≤ m := by exact_mod_cast hlower
    have htop : (10 : ℚ) ^ (400 : ℤ) ≤ 2 ^ (1024 : ℤ) := by
      calc (10 : ℚ) ^ (400 : ℤ) ≤ 10 ^ (k + e) := zpow_le_zpow_right₀ (by norm_num) (by omega)
        _ = 10 ^ k * 10 ^ e := by rw [zpow_add₀ (by norm_num), zpow_natCast]
        _ ≤ m * 10 ^ e := mul_le_mul_of_nonneg_right hcast hpos.le
        _ ≤ 2 ^ (1024 : ℤ) := hx.le_two_zpow hv hexponent
    have hlt : (2 : ℚ) ^ (1024 : ℤ) < 2 ^ (1075 : ℤ) := zpow_lt_zpow_right₀ one_lt_two (by decide)
    exact (lt_of_le_of_lt htop hlt).not_gt two_zpow_lt_ten_zpow

namespace Numeral

/-- Zeros are read as zero, whatever the power of ten. -/
theorem magnitude_zero {ds : List Char} (hds : IsDigits ds) (hzero : natural ds = 0) (scale : ℤ) :
    magnitude ds scale = 0.0 := by
  rcases hds.dropWhile_zero_cases with ⟨hnil, -⟩ | ⟨c, cs, -, -, hlower, -⟩
  · rw [magnitude, hnil]
    exact if_pos (Or.inl rfl)
  · have hpos : 0 < 10 ^ cs.length := Nat.pow_pos (by decide)
    omega

/-- **Reading.** Digits and a power of ten are read as the double that their value rounds to. -/
theorem magnitude_eq {x : Binary} (hx : x.IsDouble) (hexponent : x.exponent ≤ 971) {ds : List Char}
    (hds : IsDigits ds) {scale : ℤ} (hv : x.Denotes (natural ds * 10 ^ scale)) :
    magnitude ds scale = x.float hx .positive := by
  have hpos : 0 < natural ds := hx.natural_pos hv
  rcases hds.dropWhile_zero_cases with ⟨-, hzero⟩ | ⟨c, cs, hcs, hnatural, hlower, hupper⟩
  · exact absurd hzero hpos.ne'
  · obtain ⟨hsmall, hlarge⟩ := bounds_of_denotes hx hexponent hlower hupper hv
    unfold magnitude
    rw [hcs]
    dsimp only
    rw [List.length_cons, if_neg (by simpa using hsmall), if_neg (Int.not_lt.mpr hlarge), hnatural]
    exact ofScientific_eq hx hpos hv hexponent

end Numeral

end Residual.Decimal
