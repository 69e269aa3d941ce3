import Residual.Json.Number
import Residual.Proofs.Layout
import Residual.Proofs.Range

/-!
# Quick reading of written numbers

The digits that are written for a finite double fit into a word, and so the quick reader makes one
quotient or one product of them. It may be another double than the one that is written. A quotient
is always there, and a product is if it is not infinite. This is not clear, since the word and the
power are rounded before: `1.7976931348623158e308` is nearest to the largest double, and the product
made of it is infinite. It is not what is written for that double, and below all others there is
room for the roundings. Before the largest powers there is little room, and it is found for one
power after the other.

* `Json.quickDouble?_eq`: the word and the power of a number with few digits.
* `Json.exists_powerOfTen_hasValue`: the product of the largest word that is written before a power.
* `Json.exists_double?_ofDouble`: the number of a finite double is read as some double.
-/

namespace Residual.Json

open Residual.Decimal
open Float.Model Float.Model.UnpackedFloat

/-! ## Digits that fit into a word -/

theorem appendDigits_eq {n : ℕ} {ds : List Char} (h : n * 10 ^ ds.length + natural ds < 2 ^ 64) :
    appendDigits n ds = (n * 10 ^ ds.length + natural ds, []) := by
  induction ds generalizing n with
  | nil => simp [appendDigits, natural]
  | cons c cs ih =>
    have hsum : (10 * n + digitValue c) * 10 ^ cs.length + natural cs =
        n * 10 ^ (c :: cs).length + natural (c :: cs) := by
      rw [natural_cons, List.length_cons, pow_succ]
      ring
    have hlt : 10 * n + digitValue c < twoTo 64 := by
      change _ < 2 ^ 64
      calc 10 * n + digitValue c
          ≤ (10 * n + digitValue c) * 10 ^ cs.length :=
            Nat.le_mul_of_pos_right _ (Nat.pow_pos (by decide))
        _ ≤ (10 * n + digitValue c) * 10 ^ cs.length + natural cs := Nat.le_add_right _ _
        _ < 2 ^ 64 := by rwa [hsum]
    rw [appendDigits, if_pos hlt, ih (by rwa [hsum]), hsum]

theorem quickDouble?_eq {n : Numeral} (h : natural n.significant < 2 ^ 64) :
    quickDouble? n =
      (timesPowerOfTen? (natural n.significant).toUInt64.toFloat n.scale).map fun f =>
        if n.sign = some .minus then -f else f := by
  have hsum : natural n.whole * 10 ^ (n.fraction.getD []).length + natural (n.fraction.getD []) =
      natural n.significant := (natural_append _ _).symm
  have hwhole : appendDigits 0 n.whole = (natural n.whole, []) := by
    have hle : natural n.whole ≤ natural n.significant := by
      rw [← hsum]
      exact Nat.le_add_right_of_le (Nat.le_mul_of_pos_right _ (Nat.pow_pos (by decide)))
    rw [appendDigits_eq (by omega), Nat.zero_mul, Nat.zero_add]
  have hfraction : appendDigits (natural n.whole) (n.fraction.getD []) =
      (natural n.significant, []) := by
    rw [appendDigits_eq (by rwa [hsum]), hsum]
  unfold quickDouble?
  rw [hwhole]
  dsimp only
  rw [hfraction]
  simp

/-! ## Quotients and products -/

theorem exists_timesPowerOfTen?_of_neg {f : Float} {e : ℤ} (he : e < 0) :
    ∃ d, timesPowerOfTen? f e = some d := by
  generalize hn : e.natAbs = n
  induction n using Nat.strongRecOn generalizing f e with
  | ind n ih =>
    rw [timesPowerOfTen?]
    by_cases hnear : e.natAbs ≤ 308
    · rw [if_pos hnear, if_neg (Int.not_le.mpr he)]
      exact ⟨_, rfl⟩
    · rw [if_neg hnear]
      split
      · exact ⟨_, rfl⟩
      · rw [if_neg (Int.not_le.mpr he)]
        exact ih (e + 308).natAbs (by omega) (by omega) rfl

theorem isInf_of_isFinite {d : Float} (h : d.isFinite = true) : d.isInf = false := by
  have hfinite : d.isFinite = d.toModel.unpack.isFinite := rfl
  have hinf : d.isInf = d.toModel.unpack.isInf := rfl
  rw [hfinite] at h
  rw [hinf]
  cases hunpack : d.toModel.unpack with
  | infinity s =>
    rw [hunpack] at h
    cases h
  | _ => rfl

theorem timesPowerOfTen?_of_nonneg {f : Float} {e : ℕ} (he : e ≤ 308)
    (h : (f * powerOfTen e).isFinite = true) :
    timesPowerOfTen? f e = some (f * powerOfTen e) := by
  rw [timesPowerOfTen?, Int.natAbs_natCast, if_pos he, if_pos (Int.natCast_nonneg e)]
  dsimp only
  rw [isInf_of_isFinite h]
  rfl

/-! ## Room for the roundings -/

/-- The largest word that is written before a power of ten, unless for the largest double. -/
def wordBound (e : ℕ) : ℕ := min (10 ^ 17) ((2 ^ 54 - 3) * twoTo 970 / tenTo e)

/-- What is added to a word at most when it becomes a double. -/
def roundingOf (word : ℕ) : ℕ := if word < 2 ^ 53 then 0 else if word < 2 ^ 54 then 1 else 8

theorem roundingOf_le (word : ℕ) : roundingOf word ≤ 8 := by
  unfold roundingOf
  split_ifs <;> decide

theorem tenTo_le_tenTo {m n : ℕ} (h : m ≤ n) : tenTo m ≤ tenTo n :=
  Nat.pow_le_pow_right (by decide) h

theorem cast_tenTo (n : ℕ) : (tenTo n : ℚ) = 10 ^ (n : ℤ) := by
  rw [zpow_natCast]
  exact Nat.cast_pow 10 n

theorem cast_twoTo (n : ℕ) : (twoTo n : ℚ) = 2 ^ (n : ℤ) := by
  rw [zpow_natCast]
  exact Nat.cast_pow 2 n

theorem two_zpow_971 : (2 : ℚ) ^ (971 : ℤ) = 2 * twoTo 970 := by
  rw [cast_twoTo, ← zpow_one_add₀ two_ne_zero]
  rfl

theorem rangeBound_eq : Binary.rangeBound = ((2 ^ 54 - 1) * twoTo 970 : ℕ) := by
  have hcast : ((2 ^ 54 - 1 : ℕ) : ℚ) = 2 ^ 54 - 1 := by norm_num
  rw [Binary.rangeBound, two_zpow_971, Nat.cast_mul, hcast]
  ring

/-- The double of a power of ten is not twice as large. -/
theorem hasValue_powerOfTen {e : ℕ} (he : e ≤ 308) :
    ∃ p, HasValue (powerOfTen e) p ∧ 1 ≤ p ∧ p ≤ 2 * tenTo e := by
  have hone : (1 : ℚ) ≤ tenTo e := by exact_mod_cast tenTo_le_tenTo e.zero_le
  have hrange : (tenTo e : ℚ) < Binary.rangeBound := by
    have hlt : tenTo 308 < (2 ^ 54 - 1) * twoTo 970 := by decide +kernel
    rw [rangeBound_eq]
    exact Nat.cast_lt.mpr (Nat.lt_of_le_of_lt (tenTo_le_tenTo he) hlt)
  obtain ⟨k, hlow, hhigh⟩ := exists_nat_pow_near hone one_lt_two
  obtain ⟨x, hx, hdenotes, hbits, hleast, hvalue, hexponent⟩ := Binary.exists_denotes hlow hhigh
  have hpower : x.Denotes ((1 : ℕ) * 10 ^ (e : ℤ)) := by
    rwa [Nat.cast_one, one_mul, ← cast_tenTo]
  have hfloat : powerOfTen e = x.float hx .positive := by
    rw [← ofScientific_eq hx Nat.one_pos hpower (hexponent hrange), Int.natAbs_natCast,
      decide_eq_false (Int.not_lt.mpr (Int.natCast_nonneg e))]
    rfl
  have hunit : (2 : ℚ) ^ ((k : ℤ) - 53) ≤ 2 ^ k := by
    rw [← zpow_natCast]
    exact zpow_le_zpow_right₀ one_le_two (by omega)
  rw [hfloat]
  exact ⟨x.value, Binary.hasValue_float hx (hexponent hrange) hbits,
    Binary.one_le_value hbits hleast, by linarith⟩

/-- The product of the largest word before a power of ten with this power is within range. -/
def leavesRoom (e : ℕ) : Bool :=
  match (powerOfTen e).toModel.unpack with
  | .finite .positive m q _ =>
    2 ^ 52 ≤ m ∧ twoTo (-q).toNat ≤ m * twoTo q.toNat ∧
      (wordBound e + roundingOf (wordBound e)) * (m * twoTo q.toNat) <
        (2 ^ 54 - 1) * twoTo 970 * twoTo (-q).toNat
  | _ => false

theorem leavesRoom_table : ∀ e < 309, 290 < e → leavesRoom e = true := by
  decide +kernel

theorem hasValue_of_leavesRoom {e : ℕ} (h : leavesRoom e = true) :
    ∃ p : ℚ, HasValue (powerOfTen e) p ∧ 1 ≤ p ∧
      (wordBound e + roundingOf (wordBound e) : ℕ) * p < Binary.rangeBound := by
  unfold leavesRoom at h
  split at h
  · rename_i m q hpos hunpack
    obtain ⟨hm, hone, hroom⟩ := of_decide_eq_true h
    have hunit : (0 : ℚ) < twoTo (-q).toNat := by
      rw [cast_twoTo]
      exact Binary.two_zpow_pos _
    have hvalue : (m : ℚ) * 2 ^ q = (m * twoTo q.toNat : ℕ) / twoTo (-q).toNat := by
      rw [zpow_eq_div two_ne_zero, mul_div_assoc', Nat.cast_mul, cast_twoTo, cast_twoTo,
        zpow_natCast, zpow_natCast]
    refine ⟨m * 2 ^ q, ⟨m, q, hpos, hunpack, hm, rfl⟩, ?_, ?_⟩
    · rw [hvalue, le_div_iff₀ hunit, one_mul]
      exact_mod_cast hone
    · rw [hvalue, mul_div_assoc', div_lt_iff₀ hunit, rangeBound_eq]
      exact_mod_cast hroom
  · cases h

/-- Before the smaller powers of ten no word is large enough to come near the bound. -/
theorem exists_powerOfTen_hasValue {e : ℕ} (he : e < 309) :
    ∃ p : ℚ, HasValue (powerOfTen e) p ∧ 1 ≤ p ∧
      (wordBound e + roundingOf (wordBound e) : ℕ) * p < Binary.rangeBound := by
  by_cases hsmall : e ≤ 290
  · obtain ⟨p, hp, hone, hle⟩ := hasValue_powerOfTen (Nat.le_of_lt_succ he)
    have hword : wordBound e + roundingOf (wordBound e) ≤ 2 * 10 ^ 17 := by
      have hbound : wordBound e ≤ 10 ^ 17 := min_le_left _ _
      have hrounding := roundingOf_le (wordBound e)
      omega
    have hproduct : 2 * 10 ^ 17 * (2 * tenTo e) < (2 ^ 54 - 1) * twoTo 970 := by
      have hlargest : 2 * 10 ^ 17 * (2 * tenTo 290) < (2 ^ 54 - 1) * twoTo 970 := by decide +kernel
      have hpower := tenTo_le_tenTo hsmall
      omega
    refine ⟨p, hp, hone, ?_⟩
    calc ((wordBound e + roundingOf (wordBound e) : ℕ) : ℚ) * p
        ≤ (2 * 10 ^ 17 : ℕ) * (2 * tenTo e : ℕ) := by
          refine mul_le_mul (Nat.cast_le.mpr hword) ?_ (by linarith) (Nat.cast_nonneg _)
          rwa [Nat.cast_mul]
      _ = ((2 * 10 ^ 17 * (2 * tenTo e) : ℕ) : ℚ) := (Nat.cast_mul _ _).symm
      _ < Binary.rangeBound := lt_of_lt_of_eq (Nat.cast_lt.mpr hproduct) rangeBound_eq.symm
  · exact hasValue_of_leavesRoom (leavesRoom_table e he (Nat.lt_of_not_le hsmall))

theorem exists_word_hasValue {m w : ℕ} (hm : 0 < m) (hle : m ≤ w) (hw : w ≤ 10 ^ 17) :
    ∃ v : ℚ, HasValue m.toUInt64.toFloat v ∧ 1 ≤ v ∧ v ≤ (w + roundingOf w : ℕ) := by
  by_cases hexact : m < 2 ^ 53
  · refine ⟨m, hasValue_natural hm hexact, by exact_mod_cast hm, ?_⟩
    exact_mod_cast Nat.le_add_right_of_le hle
  · have hlow := Nat.log2_self_le hm.ne'
    have hhigh : m < 2 ^ (m.log2 + 1) := Nat.lt_log2_self
    have hlog : 53 ≤ m.log2 := (Nat.le_log2 hm.ne').mpr (by omega)
    have hlog' : m.log2 < 57 := (Nat.log2_lt hm.ne').mpr (by omega)
    obtain ⟨v, hv, hone, hup⟩ := hasValue_word hlow hhigh (by omega)
    refine ⟨v, hv, hone, le_trans hup ?_⟩
    have hunit : (2 : ℚ) ^ ((m.log2 : ℤ) - 53) ≤ roundingOf w := by
      unfold roundingOf
      rw [if_neg (by omega)]
      split
      · have hlog'' : m.log2 < 54 := (Nat.log2_lt hm.ne').mpr (by omega)
        rw [show (m.log2 : ℤ) - 53 = 0 by omega]
        norm_num
      · calc (2 : ℚ) ^ ((m.log2 : ℤ) - 53) ≤ 2 ^ (3 : ℤ) :=
              zpow_le_zpow_right₀ one_le_two (by omega)
          _ = (8 : ℕ) := by norm_num
    have hcast : (m : ℚ) ≤ w := by exact_mod_cast hle
    push_cast
    linarith

/-- The largest double, with either sign. -/
theorem quickDouble?_largest (s : UnpackedFloat.Sign) : ∃ d, quickDouble? (doubleLayout.numeral
    (.ofModel (.pack (.finite s (2 ^ 53 - 1) 971 (by decide))))) = some d := by
  refine Option.isSome_iff_exists.mp ?_
  cases s <;> decide +kernel

theorem quickDouble?_zero (s : UnpackedFloat.Sign) : ∃ d, quickDouble? (doubleLayout.numeral
    (.ofModel (.pack (.zero s)))) = some d := by
  refine Option.isSome_iff_exists.mp ?_
  cases s <;> decide +kernel

/-! ## Written numbers -/

theorem scale_numeral_cases (d : Float) :
    let s := (Binary.ofBits d.toBits).shortest .toEven
    (doubleLayout.numeral d).scale = s.exponent ∨
      ((doubleLayout.numeral d).scale = -1 ∧ 0 ≤ s.exponent ∧
        s.exponent + (digits s.digits).length ≤ 16) := by
  intro s
  unfold Layout.numeral
  dsimp only
  split
  · rename_i hpositional
    rw [Layout.scale_positionalNumeral]
    split
    · rename_i hexponent
      obtain ⟨-, hlt⟩ : -5 ≤ s.exponent + (digits s.digits).length - 1 ∧
          s.exponent + (digits s.digits).length - 1 < 16 := by
        simpa [Layout.isPositional, doubleLayout] using hpositional
      exact Or.inr ⟨rfl, hexponent, by omega⟩
    · exact Or.inl rfl
  · exact Or.inl (Layout.scale_exponentNumeral _ _)

theorem natural_significant_le {d : Float} (hx : (Binary.ofBits d.toBits).IsDouble)
    (hexponent : (Binary.ofBits d.toBits).exponent ≤ 971) :
    natural (doubleLayout.numeral d).significant ≤ 10 ^ 17 := by
  have hvalue := doubleLayout.value_numeral d
  have hdigits := Binary.digits_shortest_le hx hexponent .toEven
  have hcases := scale_numeral_cases d
  change _ = (((Binary.ofBits d.toBits).shortest .toEven).digits : ℚ) *
    10 ^ ((Binary.ofBits d.toBits).shortest .toEven).exponent at hvalue
  unfold Numeral.value at hvalue
  generalize natural (doubleLayout.numeral d).significant = n at *
  generalize (doubleLayout.numeral d).scale = scale at *
  generalize (Binary.ofBits d.toBits).shortest .toEven = s at *
  rcases hcases with rfl | ⟨rfl, hnonneg, hlength⟩
  · have hn : (n : ℚ) = s.digits := mul_right_cancel₀ (ten_zpow_pos _).ne' hvalue
    rwa [show n = s.digits by exact_mod_cast hn]
  · -- a zero is put after the point, and the number has few digits before it
    have hn : (n : ℚ) = s.digits * 10 ^ (s.exponent + 1) := by
      rw [zpow_add₀ (by norm_num), ← mul_assoc, ← hvalue, mul_assoc, ← zpow_add₀ (by norm_num)]
      norm_num
    have hlt : s.digits < 10 ^ (digits s.digits).length := by
      simpa only [natural_digits] using (isDigits_digits s.digits).natural_lt
    have hlt' : (s.digits : ℚ) ≤ 10 ^ (digits s.digits).length := by exact_mod_cast hlt.le
    have hle : (n : ℚ) ≤ 10 ^ 17 := by
      calc (n : ℚ) ≤ 10 ^ (digits s.digits).length * 10 ^ (s.exponent + 1) :=
            hn ▸ mul_le_mul_of_nonneg_right hlt' (ten_zpow_pos _).le
        _ = 10 ^ (((digits s.digits).length : ℤ) + (s.exponent + 1)) := by
            rw [zpow_add₀ (by norm_num) _ (s.exponent + 1), zpow_natCast]
        _ ≤ 10 ^ (17 : ℤ) := zpow_le_zpow_right₀ (by norm_num) (by omega)
        _ = 10 ^ 17 := zpow_natCast 10 17
    exact_mod_cast hle

/-- Below the largest double there is room for one unit, and half of one is needed. -/
theorem upper_le {x : Binary} (hx : x.IsDouble) (hexponent : x.exponent ≤ 971)
    (hlargest : ¬ (x.significand = 2 ^ 53 - 1 ∧ x.exponent = 971)) :
    x.upper ≤ ((2 ^ 54 - 3) * twoTo 970 : ℕ) := by
  have hbound : (((2 ^ 54 - 3) * twoTo 970 : ℕ) : ℚ) = (2 ^ 53 - 3 / 2) * 2 ^ (971 : ℤ) := by
    have hcast : ((2 ^ 54 - 3 : ℕ) : ℚ) = 2 ^ 54 - 3 := by norm_num
    rw [two_zpow_971, Nat.cast_mul, hcast]
    ring
  rw [hbound, Binary.upper]
  rcases hexponent.eq_or_lt with heq | hlt
  · have hsig : x.significand + 2 ≤ 2 ^ 53 := by
      have := hx.lt
      omega
    have hsig' : (x.significand : ℚ) + 2 ≤ 2 ^ 53 := by exact_mod_cast hsig
    rw [heq]
    exact mul_le_mul_of_nonneg_right (by linarith) (Binary.two_zpow_pos _).le
  · have hsig : (x.significand : ℚ) + 1 ≤ 2 ^ 53 := by exact_mod_cast hx.lt
    calc ((x.significand : ℚ) + 1 / 2) * 2 ^ x.exponent ≤ 2 ^ 53 * 2 ^ (970 : ℤ) := by
          refine mul_le_mul (by linarith) (zpow_le_zpow_right₀ one_le_two (by omega))
            (Binary.two_zpow_pos _).le (by norm_num)
      _ ≤ (2 ^ 53 - 3 / 2) * 2 ^ (971 : ℤ) := by
          have hpos := Binary.two_zpow_pos 970
          rw [show (971 : ℤ) = 970 + 1 from rfl, zpow_add_one₀ two_ne_zero]
          generalize (2 : ℚ) ^ (970 : ℤ) = p at *
          linarith

/-- A number that is not nearest to the largest double leaves room for the roundings. -/
theorem exists_timesPowerOfTen?_of_nonneg {x : Binary} (hx : x.IsDouble)
    (hexponent : x.exponent ≤ 971)
    (hlargest : ¬ (x.significand = 2 ^ 53 - 1 ∧ x.exponent = 971)) {m e : ℕ} (hm : m ≤ 10 ^ 17)
    (hv : x.Denotes (m * 10 ^ (e : ℤ))) :
    ∃ d, timesPowerOfTen? m.toUInt64.toFloat e = some d := by
  have hpos : 0 < m := hx.natural_pos hv
  have hle : m * tenTo e ≤ (2 ^ 54 - 3) * twoTo 970 := by
    have hcast : ((m * tenTo e : ℕ) : ℚ) = m * 10 ^ (e : ℤ) := by
      rw [Nat.cast_mul, cast_tenTo]
    refine Nat.cast_le.mp (le_trans (le_of_eq hcast) ?_)
    exact le_trans hv.le_upper (upper_le hx hexponent hlargest)
  have he : e < 309 := by
    by_contra hge
    have hpowers : tenTo 309 ≤ tenTo e := tenTo_le_tenTo (Nat.le_of_not_lt hge)
    have hmul : tenTo e ≤ m * tenTo e := Nat.le_mul_of_pos_left _ hpos
    have hlt : (2 ^ 54 - 3) * twoTo 970 < tenTo 309 := by decide +kernel
    omega
  have hword : m ≤ wordBound e :=
    le_min hm ((Nat.le_div_iff_mul_le (Nat.pow_pos (by decide))).mpr hle)
  obtain ⟨v, hv, hvone, hvle⟩ := exists_word_hasValue hpos hword (min_le_left _ _)
  obtain ⟨p, hp, hpone, hproom⟩ := exists_powerOfTen_hasValue he
  have hfinite : (m.toUInt64.toFloat * powerOfTen e).isFinite = true := by
    refine isFinite_mul hv hp (one_le_mul_of_one_le_of_one_le hvone hpone) ?_
    exact lt_of_le_of_lt (mul_le_mul_of_nonneg_right hvle (by linarith)) hproom
  exact ⟨_, timesPowerOfTen?_of_nonneg (Nat.le_of_lt_succ he) hfinite⟩

theorem exists_quickDouble?_numeral {d : Float} (h : d.isFinite = true) :
    ∃ d', quickDouble? (doubleLayout.numeral d) = some d' := by
  rcases finite_cases h with ⟨-, hd⟩ | ⟨hx, hexponent, hd⟩
  · rw [hd]
    exact quickDouble?_zero _
  · by_cases hlargest : (Binary.ofBits d.toBits).significand = 2 ^ 53 - 1 ∧
        (Binary.ofBits d.toBits).exponent = 971
    · have hfloat : d = .ofModel (.pack (.finite (signOf d.toBits) (2 ^ 53 - 1) 971 (by decide))) :=
        hd.trans (congrArg (fun u => Float.ofModel (.pack u))
          (finite_congr hlargest.1 hlargest.2))
      rw [hfloat]
      exact quickDouble?_largest _
    · have hdigits := natural_significant_le hx hexponent
      have hdenotes : (Binary.ofBits d.toBits).Denotes (doubleLayout.numeral d).value :=
        doubleLayout.value_numeral d ▸ Binary.denotes_shortest hx hexponent .toEven
      unfold Numeral.value at hdenotes
      rw [quickDouble?_eq (Nat.lt_of_le_of_lt hdigits (by decide))]
      generalize (doubleLayout.numeral d).scale = scale at *
      suffices hquick : ∃ d', timesPowerOfTen?
          (natural (doubleLayout.numeral d).significant).toUInt64.toFloat scale = some d' by
        obtain ⟨d', hd'⟩ := hquick
        exact ⟨_, congrArg (Option.map _) hd'⟩
      rcases lt_or_ge scale 0 with hneg | hnonneg
      · exact exists_timesPowerOfTen?_of_neg hneg
      · obtain ⟨e, rfl⟩ := Int.eq_ofNat_of_zero_le hnonneg
        exact exists_timesPowerOfTen?_of_nonneg hx hexponent hlargest hdigits hdenotes

/-- **Numbers are read.** The number that is written for a finite double is read as some double. -/
theorem exists_double?_ofDouble {d : Float} (h : d.isFinite = true) :
    ∃ d', (ofDouble d).double? = some d' := by
  rw [ofDouble, if_pos h]
  exact exists_quickDouble?_numeral h

end Residual.Json
