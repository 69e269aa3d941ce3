import Residual.Proofs.Nearest

/-!
# The decimal chosen for a double

The comparison of natural numbers that decides whether a decimal denotes a double says what it
should: the decimal rounds to the double. With seventeen digits the decimals lie closer together
than the doubles, so that one next to the value rounds to it. So a decimal is always found, and it
denotes the double for which it is chosen.

* `Binary.denotedBy_iff`: the comparison is that of the exact numbers.
* `Binary.tenTo_magnitude_le`: the estimate of the number of digits before the point.
* `Binary.denotes_shortest`: the decimal chosen rounds to the double.
* `Binary.digits_shortest_le`: how many digits it has.
-/

namespace Residual.Decimal

namespace Binary

/-! ## The grid -/

theorem unit_mul (x : Binary) (g : ℤ) : (x.unit g : ℚ) * 10 ^ g = x.base g * 2 ^ x.exponent := by
  have htwo : ∀ n, twoTo n = 2 ^ n := fun _ => rfl
  have hten : ∀ n, tenTo n = 10 ^ n := fun _ => rfl
  unfold unit base
  rw [htwo, htwo, hten, hten, zpow_eq_div (by norm_num) g, zpow_eq_div two_ne_zero x.exponent]
  push_cast
  field_simp

theorem base_pos (x : Binary) (g : ℤ) : (0 : ℚ) < x.base g := by
  have hpos : 0 < x.base g := Nat.mul_pos (Nat.pow_pos (by decide)) (Nat.pow_pos (by decide))
  exact_mod_cast hpos

section

variable (x : Binary) (g : ℤ) (a d : ℕ)

/-- Quarters of a unit, and points of the grid, on one scale. -/
theorem scaled_quarters : ((a * x.unit g : ℕ) : ℚ) * 10 ^ g =
    a / 4 * 2 ^ x.exponent * (4 * x.base g) := by
  push_cast
  rw [mul_assoc, unit_mul]
  ring

theorem scaled_point : ((4 * d * x.base g : ℕ) : ℚ) * 10 ^ g = d * 10 ^ g * (4 * x.base g) := by
  push_cast
  ring

theorem quarters_lt_iff :
    a * x.unit g < 4 * d * x.base g ↔ (a / 4 * 2 ^ x.exponent : ℚ) < d * 10 ^ g := by
  have hbase := x.base_pos g
  have hten : (0 : ℚ) < 10 ^ g := ten_zpow_pos g
  rw [← @Nat.cast_lt ℚ, ← mul_lt_mul_iff_left₀ hten, scaled_quarters, scaled_point,
    mul_lt_mul_iff_left₀ (by positivity)]

theorem lt_quarters_iff :
    4 * d * x.base g < a * x.unit g ↔ (d * 10 ^ g : ℚ) < a / 4 * 2 ^ x.exponent := by
  have hbase := x.base_pos g
  have hten : (0 : ℚ) < 10 ^ g := ten_zpow_pos g
  rw [← @Nat.cast_lt ℚ, ← mul_lt_mul_iff_left₀ hten, scaled_quarters, scaled_point,
    mul_lt_mul_iff_left₀ (by positivity)]

theorem eq_quarters_iff :
    4 * d * x.base g = a * x.unit g ↔ (d * 10 ^ g : ℚ) = a / 4 * 2 ^ x.exponent := by
  have hbase := x.base_pos g
  have hten : (0 : ℚ) < 10 ^ g := ten_zpow_pos g
  rw [← @Nat.cast_inj ℚ, ← mul_left_inj' hten.ne', scaled_quarters, scaled_point,
    mul_left_inj' (by positivity)]

end

theorem denotedBy_iff {x : Binary} (hx : 0 < x.significand) (g : ℤ) (d : ℕ) :
    x.denotedBy g d = true ↔ x.Denotes (d * 10 ^ g) := by
  have hlower : (((4 * x.significand - if x.narrowBelow then 1 else 2 : ℕ) : ℚ) / 4) *
      2 ^ x.exponent = x.lower := by
    unfold lower
    congr 1
    split
    · push_cast [show 1 ≤ 4 * x.significand by omega]
      ring
    · push_cast [show 2 ≤ 4 * x.significand by omega]
      ring
  have hupper : (((4 * x.significand + 2 : ℕ) : ℚ) / 4) * 2 ^ x.exponent = x.upper := by
    unfold upper
    push_cast
    ring
  unfold denotedBy Denotes
  simp only [Bool.or_eq_true, Bool.and_eq_true, decide_eq_true_iff, beq_iff_eq, quarters_lt_iff,
    lt_quarters_iff, eq_quarters_iff, hlower, hupper]

/-! ## The points next to the value -/

/-- The value of the double. -/
def value (x : Binary) : ℚ := x.significand * 2 ^ x.exponent

theorem scaled_value (x : Binary) (g : ℤ) :
    ((x.significand * x.unit g : ℕ) : ℚ) * 10 ^ g = x.value * x.base g := by
  unfold value
  push_cast
  rw [mul_assoc, unit_mul]
  ring

theorem gridFloor_le (x : Binary) (g : ℤ) : (x.gridFloor g : ℚ) * 10 ^ g ≤ x.value := by
  have hten : (0 : ℚ) < 10 ^ g := ten_zpow_pos g
  have hfloor : ((x.gridFloor g * x.base g : ℕ) : ℚ) ≤ (x.significand * x.unit g : ℕ) := by
    exact_mod_cast Nat.div_mul_le_self _ _
  have hscaled := mul_le_mul_of_nonneg_right hfloor hten.le
  rw [scaled_value] at hscaled
  refine le_of_mul_le_mul_right ?_ (x.base_pos g)
  push_cast at hscaled
  linarith

theorem lt_gridFloor_succ (x : Binary) (g : ℤ) : x.value < (x.gridFloor g + 1) * 10 ^ g := by
  have hten : (0 : ℚ) < 10 ^ g := ten_zpow_pos g
  have hbase : 0 < x.base g := by exact_mod_cast x.base_pos g
  have hfloor : ((x.significand * x.unit g : ℕ) : ℚ) < ((x.gridFloor g + 1) * x.base g : ℕ) := by
    exact_mod_cast (Nat.div_lt_iff_lt_mul hbase).mp (Nat.lt_succ_self _)
  have hscaled := mul_lt_mul_of_pos_right hfloor hten
  rw [scaled_value] at hscaled
  refine lt_of_mul_lt_mul_right ?_ (x.base_pos g).le
  push_cast at hscaled
  linarith

theorem ten_zpow_le_value {x : Binary} {g : ℤ} (h : x.gridFloor g ≠ 0) : 10 ^ g ≤ x.value := by
  have hone : (1 : ℚ) ≤ x.gridFloor g := by exact_mod_cast Nat.pos_of_ne_zero h
  have hten : (0 : ℚ) < 10 ^ g := ten_zpow_pos g
  exact le_trans (le_mul_of_one_le_left hten.le hone) (x.gridFloor_le g)

/-! ## The digits before the point -/

/-- A power of ten is at most a power of two if the exponents are as those of a power of ten and a
power of two that are near to each other. -/
theorem ten_zpow_le_two_zpow {p q : ℕ} {k b : ℤ} (hq : q ≠ 0)
    (h : ((10 : ℚ) ^ p) ^ b ≤ (2 ^ q) ^ b) (hk : k * q ≤ p * b) : (10 : ℚ) ^ k ≤ 2 ^ b := by
  have hpow : ((10 : ℚ) ^ k) ^ q ≤ (2 ^ b) ^ q := by
    calc ((10 : ℚ) ^ k) ^ q = 10 ^ (k * q) := by rw [zpow_mul, zpow_natCast]
      _ ≤ 10 ^ (p * b) := zpow_le_zpow_right₀ (by norm_num) hk
      _ = (10 ^ p) ^ b := by rw [zpow_mul, zpow_natCast]
      _ ≤ (2 ^ q) ^ b := h
      _ = (2 ^ b) ^ q := by rw [← zpow_natCast, ← zpow_natCast, zpow_comm]
  exact (pow_le_pow_iff_left₀ (by positivity) (by positivity) hq).mp hpow

/-- The factor of the estimate lies between 31 / 103 and 28 / 93, as the logarithm of two does. -/
theorem ten_zpow_estimate_le {b : ℤ} (h : -1074 ≤ b) (h' : b ≤ 1023) :
    (10 : ℚ) ^ (b * 30103 / 100000 - 1) ≤ 2 ^ b := by
  rcases Int.le_total 0 b with hb | hb
  · have hnear : (10 : ℚ) ^ 31 ≤ 2 ^ 103 := by norm_num
    refine ten_zpow_le_two_zpow (by decide) (zpow_le_zpow_left₀ hb (by positivity) hnear) ?_
    push_cast
    omega
  · have hnear : (2 : ℚ) ^ 93 ≤ 10 ^ 28 := by norm_num
    refine ten_zpow_le_two_zpow (by decide) (zpow_le_zpow_of_nonpos (by positivity) hnear hb) ?_
    push_cast
    omega

/-- One more digit before the point than estimated is enough. -/
theorem two_zpow_le_ten_zpow_estimate {b : ℤ} (h : -1074 ≤ b) (h' : b ≤ 1023) :
    (2 : ℚ) ^ (b + 1) ≤ 10 ^ (b * 30103 / 100000 + 2) := by
  have hinverse : (10 : ℚ) ^ (-(b * 30103 / 100000 + 2)) ≤ 2 ^ (-(b + 1)) := by
    rcases Int.le_total 0 (-(b + 1)) with hb | hb
    · have hnear : (10 : ℚ) ^ 31 ≤ 2 ^ 103 := by norm_num
      refine ten_zpow_le_two_zpow (by decide) (zpow_le_zpow_left₀ hb (by positivity) hnear) ?_
      push_cast
      omega
    · have hnear : (2 : ℚ) ^ 93 ≤ 10 ^ 28 := by norm_num
      refine ten_zpow_le_two_zpow (by decide) (zpow_le_zpow_of_nonpos (by positivity) hnear hb) ?_
      push_cast
      omega
  rw [zpow_neg, zpow_neg] at hinverse
  exact (inv_le_inv₀ (ten_zpow_pos _) (two_zpow_pos _)).mp hinverse

theorem ten_zpow_magnitude_le {x : Binary} (hx : x.IsDouble) (hexponent : x.exponent ≤ 971) :
    (10 : ℚ) ^ (x.magnitude - 1) ≤ x.value := by
  have hlog : (2 : ℚ) ^ ((x.significand.log2 : ℤ) + x.exponent) ≤ x.value := by
    have hself : (2 : ℚ) ^ x.significand.log2 ≤ x.significand := by
      exact_mod_cast Nat.log2_self_le hx.pos.ne'
    rw [zpow_add₀ two_ne_zero, zpow_natCast]
    exact mul_le_mul_of_nonneg_right hself (two_zpow_pos _).le
  have hbits : x.significand.log2 < 53 := (Nat.log2_lt hx.pos.ne').mpr hx.lt
  have hleast := hx.exponent
  have hestimate := le_trans (ten_zpow_estimate_le (by omega) (by omega)) hlog
  unfold magnitude
  dsimp only
  generalize ((x.significand.log2 : ℤ) + x.exponent) * 30103 / 100000 = low at *
  rw [List.find?_cons]
  split
  · exact hestimate
  · rename_i hlow
    rw [List.find?_cons]
    split
    · rw [Option.getD_some, Int.add_sub_cancel]
      exact ten_zpow_le_value (by simpa using hlow)
    · rename_i hnext
      rw [List.find?_nil, Option.getD_none, show low + 2 - 1 = low + 1 by omega]
      exact ten_zpow_le_value (by simpa using hnext)

theorem value_lt_of_gridFloor {x : Binary} {g : ℤ} (h : x.gridFloor g = 0) : x.value < 10 ^ g := by
  have hlt := x.lt_gridFloor_succ g
  rwa [h, Nat.cast_zero, zero_add, one_mul] at hlt

theorem value_lt_ten_zpow_magnitude {x : Binary} (hx : x.IsDouble) (hexponent : x.exponent ≤ 971) :
    x.value < 10 ^ x.magnitude := by
  have hlog : x.value < (2 : ℚ) ^ ((x.significand.log2 : ℤ) + x.exponent + 1) := by
    have hself : (x.significand : ℚ) < 2 ^ (x.significand.log2 + 1) := by
      exact_mod_cast Nat.lt_log2_self
    rw [show (x.significand.log2 : ℤ) + x.exponent + 1 =
      ((x.significand.log2 + 1 : ℕ) : ℤ) + x.exponent by push_cast; ring,
      zpow_add₀ two_ne_zero, zpow_natCast]
    exact mul_lt_mul_of_pos_right hself (two_zpow_pos _)
  have hbits : x.significand.log2 < 53 := (Nat.log2_lt hx.pos.ne').mpr hx.lt
  have hleast := hx.exponent
  have hestimate := lt_of_lt_of_le hlog (two_zpow_le_ten_zpow_estimate (by omega) (by omega))
  unfold magnitude
  dsimp only
  generalize ((x.significand.log2 : ℤ) + x.exponent) * 30103 / 100000 = low at *
  rw [List.find?_cons]
  split
  · rename_i hlow
    exact value_lt_of_gridFloor (by simpa using hlow)
  · rw [List.find?_cons]
    split
    · rename_i hnext
      exact value_lt_of_gridFloor (by simpa using hnext)
    · exact hestimate

/-! ## The choice -/

/-- If the points of the grid are closer together than the doubles, one of the two next to the value
denotes it. -/
theorem denotes_floor_or_succ {x : Binary} (hx : x.IsDouble) {g : ℤ}
    (hg : (10 : ℚ) ^ 16 * 10 ^ g ≤ x.value) :
    x.Denotes (x.gridFloor g * 10 ^ g) ∨ x.Denotes ((x.gridFloor g + 1 : ℕ) * 10 ^ g) := by
  have hbelow := x.gridFloor_le g
  have habove := x.lt_gridFloor_succ g
  have hpos := two_zpow_pos x.exponent
  have hlower : x.lower = x.value - (if x.narrowBelow then 1 / 4 else 1 / 2) * 2 ^ x.exponent :=
    sub_mul _ _ _
  have hupper : x.upper = x.value + 1 / 2 * 2 ^ x.exponent := add_mul _ _ _
  push_cast
  by_cases hnarrow : x.narrowBelow = true
  · -- the value is a power of two
    have hvalue : x.value = 2 ^ 52 * 2 ^ x.exponent := by
      rw [value, (hx.narrow.mp hnarrow).1]
      push_cast
      rfl
    rw [if_pos hnarrow] at hlower
    refine Or.inr (Or.inl ⟨?_, ?_⟩) <;> linarith
  · have hsig : (x.significand : ℚ) < 2 ^ 53 := by exact_mod_cast hx.lt
    have hvalue : x.value < 2 ^ 53 * 2 ^ x.exponent := mul_lt_mul_of_pos_right hsig hpos
    rw [if_neg hnarrow] at hlower
    by_cases hnear : x.lower < x.gridFloor g * 10 ^ g
    · refine Or.inl (Or.inl ⟨hnear, ?_⟩)
      linarith
    · refine Or.inr (Or.inl ⟨?_, ?_⟩) <;> linarith

theorem nearer_cases (x : Binary) (tie : Tie) (g : ℤ) (d : ℕ) :
    x.nearer tie g d = d ∨ x.nearer tie g d = d + 1 := by
  unfold nearer
  split
  · exact Or.inl rfl
  · exact Or.inr rfl
  · cases tie with
    | up => exact Or.inr rfl
    | toEven =>
      dsimp only
      omega

theorem denotedBy_of_onGrid? {x : Binary} {tie : Tie} {g : ℤ} {d : ℕ}
    (h : x.onGrid? tie g = some d) : x.denotedBy g d = true := by
  unfold onGrid? at h
  dsimp only at h
  split at h
  · rename_i hfloor hsucc
    cases h
    rcases x.nearer_cases tie g (x.gridFloor g) with hd | hd
    · rw [hd]
      exact hfloor
    · rw [hd]
      exact hsucc
  · rename_i hfloor _
    cases h
    exact hfloor
  · rename_i _ hsucc
    cases h
    exact hsucc
  · cases h

theorem exists_onGrid? {x : Binary} (hx : x.IsDouble) {tie : Tie} {g : ℤ}
    (hg : (10 : ℚ) ^ 16 * 10 ^ g ≤ x.value) : ∃ d, x.onGrid? tie g = some d := by
  unfold onGrid?
  dsimp only
  split
  · exact ⟨_, rfl⟩
  · exact ⟨_, rfl⟩
  · exact ⟨_, rfl⟩
  · rename_i hfloor hsucc
    rcases denotes_floor_or_succ hx hg with h | h
    · rw [(denotedBy_iff hx.pos _ _).mpr h] at hfloor
      cases hfloor
    · rw [(denotedBy_iff hx.pos _ _).mpr h] at hsucc
      cases hsucc

theorem value_strip (fuel : ℕ) (s : Scaled) :
    ((strip fuel s).digits : ℚ) * 10 ^ (strip fuel s).exponent = s.digits * 10 ^ s.exponent := by
  induction fuel generalizing s with
  | zero => rfl
  | succ fuel ih =>
    rw [strip]
    split
    · rename_i hzero
      rw [ih]
      have hdigits : (s.digits : ℚ) = (s.digits / 10 : ℕ) * 10 := by
        exact_mod_cast (by omega : s.digits = s.digits / 10 * 10)
      rw [hdigits, zpow_add_one₀ (by norm_num)]
      dsimp only
      ring
    · rfl

/-- The decimal chosen lies on a grid on which there is one that denotes the value. -/
theorem shortest_cases {x : Binary} (h : x.significand ≠ 0) (tie : Tie) :
    ((∀ n < 17, x.onGrid? tie (x.magnitude - (n + 1 : ℕ)) = none) ∧
        (x.shortest tie).exponent = 0) ∨
      ∃ g d, x.magnitude ≤ 17 + g ∧ x.onGrid? tie g = some d ∧
        x.shortest tie = strip 17 ⟨d, g⟩ := by
  unfold shortest
  rw [if_neg h]
  dsimp only
  cases hs : (List.range 17).findSome? fun n =>
      (x.onGrid? tie (x.magnitude - (n + 1 : Nat))).map fun d =>
        strip 17 ⟨d, x.magnitude - (n + 1 : Nat)⟩ with
  | none =>
    refine Or.inl ⟨fun n hn => ?_, rfl⟩
    exact Option.map_eq_none_iff.mp (List.findSome?_eq_none_iff.mp hs n (List.mem_range.mpr hn))
  | some s =>
    obtain ⟨n, hrange, hn⟩ := List.exists_of_findSome?_eq_some hs
    obtain ⟨d, hd, rfl⟩ := Option.map_eq_some_iff.mp hn
    have hlt := List.mem_range.mp hrange
    exact Or.inr ⟨_, d, by omega, hd, rfl⟩

/-- For a double there is one, on a grid of no more than seventeen digits. -/
theorem exists_shortest {x : Binary} (hx : x.IsDouble) (hexponent : x.exponent ≤ 971) (tie : Tie) :
    ∃ g d, x.magnitude ≤ 17 + g ∧ x.onGrid? tie g = some d ∧
      x.shortest tie = strip 17 ⟨d, g⟩ := by
  obtain ⟨d, hd⟩ : ∃ d, x.onGrid? tie (x.magnitude - (16 + 1 : ℕ)) = some d := by
    refine exists_onGrid? hx (le_trans (le_of_eq ?_) (ten_zpow_magnitude_le hx hexponent))
    rw [← zpow_natCast, ← zpow_add₀ (by norm_num)]
    congr 1
    push_cast
    omega
  rcases shortest_cases hx.pos.ne' tie with ⟨hnone, -⟩ | hfound
  · rw [hnone 16 (by decide)] at hd
    cases hd
  · exact hfound

/-- **Shortest decimals.** The decimal chosen for a double rounds to it. -/
theorem denotes_shortest {x : Binary} (hx : x.IsDouble) (hexponent : x.exponent ≤ 971) (tie : Tie) :
    x.Denotes ((x.shortest tie).digits * 10 ^ (x.shortest tie).exponent) := by
  obtain ⟨g, d, -, hd, hs⟩ := exists_shortest hx hexponent tie
  rw [hs, value_strip]
  exact (denotedBy_iff hx.pos _ _).mp (denotedBy_of_onGrid? hd)

theorem le_of_onGrid? {x : Binary} {tie : Tie} {g : ℤ} {d : ℕ} (h : x.onGrid? tie g = some d) :
    d ≤ x.gridFloor g + 1 := by
  unfold onGrid? at h
  dsimp only at h
  split at h
  · cases h
    rcases x.nearer_cases tie g (x.gridFloor g) with hd | hd <;> omega
  · cases h
    exact Nat.le_succ _
  · cases h
    exact Nat.le_refl _
  · cases h

theorem strip_digits_le (fuel : ℕ) (s : Scaled) : (strip fuel s).digits ≤ s.digits := by
  induction fuel generalizing s with
  | zero => exact Nat.le_refl _
  | succ fuel ih =>
    rw [strip]
    split
    · exact Nat.le_trans (ih _) (Nat.div_le_self _ _)
    · exact Nat.le_refl _

/-- The decimal chosen has no more than seventeen digits, unless it is the first number with more
of them. -/
theorem digits_shortest_le {x : Binary} (hx : x.IsDouble) (hexponent : x.exponent ≤ 971)
    (tie : Tie) : (x.shortest tie).digits ≤ 10 ^ 17 := by
  obtain ⟨g, d, hg, hd, hs⟩ := exists_shortest hx hexponent tie
  have hfloor : (x.gridFloor g : ℚ) < 10 ^ 17 := by
    refine lt_of_mul_lt_mul_right ?_ (ten_zpow_pos g).le
    calc (x.gridFloor g : ℚ) * 10 ^ g ≤ x.value := x.gridFloor_le g
      _ < 10 ^ x.magnitude := value_lt_ten_zpow_magnitude hx hexponent
      _ ≤ 10 ^ (17 + g) := zpow_le_zpow_right₀ (by norm_num) hg
      _ = 10 ^ 17 * 10 ^ g := zpow_add₀ (by norm_num) 17 g
  have hfloor' : x.gridFloor g < 10 ^ 17 := by exact_mod_cast hfloor
  rw [hs]
  exact Nat.le_trans (strip_digits_le 17 _) (Nat.le_trans (le_of_onGrid? hd) hfloor')

/-! ## The decimal is not zero -/

/-- Zero is below everything that rounds to a value other than zero. -/
theorem denotedBy_zero {x : Binary} (h : 0 < x.significand) (g : ℤ) : x.denotedBy g 0 = false := by
  have hone : (1 : ℚ) ≤ x.significand := by exact_mod_cast h
  have hpos : 0 < x.lower :=
    lt_of_lt_of_le (mul_pos (by linarith) (two_zpow_pos _)) x.half_le_lower
  rw [Bool.eq_false_iff, Ne, denotedBy_iff h]
  intro hzero
  have hle := hzero.lower_le
  rw [Nat.cast_zero, zero_mul] at hle
  linarith

theorem strip_digits_ne_zero (fuel : ℕ) {s : Scaled} (h : s.digits ≠ 0) :
    (strip fuel s).digits ≠ 0 := by
  induction fuel generalizing s with
  | zero => exact h
  | succ fuel ih =>
    rw [strip]
    split
    · refine ih ?_
      dsimp only
      omega
    · exact h

/-- A decimal with the digit zero is zero, without a power of ten. -/
theorem exponent_shortest {x : Binary} {tie : Tie} (h : (x.shortest tie).digits = 0) :
    (x.shortest tie).exponent = 0 := by
  by_cases hx : x.significand = 0
  · rw [shortest, if_pos hx]
  · rcases shortest_cases hx tie with ⟨-, hexponent⟩ | ⟨g, d, -, hd, hs⟩
    · exact hexponent
    · rw [hs] at h
      have hne : d ≠ 0 := by
        rintro rfl
        have hzero := denotedBy_of_onGrid? hd
        rw [denotedBy_zero (Nat.pos_of_ne_zero hx)] at hzero
        cases hzero
      exact absurd h (strip_digits_ne_zero 17 hne)

end Binary

end Residual.Decimal
