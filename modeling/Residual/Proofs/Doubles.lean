import Residual.Proofs.Rounding

/-!
# Doubles and their bits

A double is packed into one bit for the sign, eleven for the exponent and 52 for the digits. Packing
and unpacking undo each other. So a finite double is a zero, or it is determined by its sign and by
the value that its bits are read as when the double is written.

* `unpack_cases`, `finite_cases`: what the bits of a finite double stand for.
* `special_cases`: the doubles that are not finite.
* `unpack_pack`, `ofModel_pack_unpack`: packing and unpacking.
* `Binary.float`: the double with a sign and a value.
-/

namespace Residual.Decimal

open Float.Model Float.Model.UnpackedFloat

/-! ## The bits of a double -/

theorem toNat_unpackMantissa (b : BitVec 64) :
    (@unpackMantissa Format.binary64 b).toNat = b.toNat % 2 ^ 52 := by
  simp [unpackMantissa]

theorem toNat_unpackExponent (b : BitVec 64) :
    (@unpackExponent Format.binary64 b).toNat = b.toNat / 2 ^ 52 % 2 ^ 11 := by
  simp [unpackExponent, Nat.shiftRight_eq_div_pow]

theorem toNat_unpackSign (b : BitVec 64) :
    (@unpackSign Format.binary64 b).toNat = b.toNat / 2 ^ 63 := by
  have hb := b.isLt
  simp only [unpackSign, BitVec.toNat_cast, BitVec.extractLsb_toNat, Nat.shiftRight_eq_div_pow]
  exact Nat.mod_eq_of_lt (by omega)

theorem toNat_implicitBit (m : BitVec 52) : (1#1 ++ m).toNat = 2 ^ 52 + m.toNat := by
  rw [BitVec.toNat_append, ← Nat.shiftLeft_add_eq_or_of_lt m.isLt]
  rfl

/-- The sign of a double. -/
def signOf (bits : UInt64) : UnpackedFloat.Sign := if bits >>> 63 = 1 then .negative else .positive

theorem signOf_eq (bits : UInt64) :
    UnpackedFloat.Sign.ofBitVec (@unpackSign Format.binary64 bits.toBitVec) = signOf bits := by
  have hshift : (bits >>> 63).toNat = bits.toBitVec.toNat / 2 ^ 63 := by
    rw [UInt64.toNat_shiftRight, Nat.shiftRight_eq_div_pow]
    rfl
  rw [← toNat_unpackSign] at hshift
  unfold UnpackedFloat.Sign.ofBitVec signOf
  simp only [← UInt64.toNat_inj, hshift]
  rcases BitVec.eq_zero_or_eq_one (@unpackSign Format.binary64 bits.toBitVec) with h | h
  · rw [h]
    rfl
  · rw [h]
    rfl

theorem toNat_and_mantissa (bits : UInt64) : (bits &&& 0xFFFFFFFFFFFFF).toNat =
    (@unpackMantissa Format.binary64 bits.toBitVec).toNat := by
  rw [toNat_unpackMantissa, UInt64.toNat_and]
  exact Nat.and_two_pow_sub_one_eq_mod bits.toNat 52

theorem toNat_and_exponent (bits : UInt64) : ((bits >>> 52) &&& 0x7FF).toNat =
    (@unpackExponent Format.binary64 bits.toBitVec).toNat := by
  rw [toNat_unpackExponent, UInt64.toNat_and, UInt64.toNat_shiftRight, Nat.shiftRight_eq_div_pow]
  exact Nat.and_two_pow_sub_one_eq_mod (bits.toNat / 2 ^ 52) 11

theorem finite_congr {s : UnpackedFloat.Sign} {m m' : ℕ} {e e' : ℤ} {h : 0 < m} {h' : 0 < m'}
    (hm : m = m') (he : e = e') : UnpackedFloat.finite s m e h = .finite s m' e' h' := by
  subst hm he
  rfl

/-! ## Finite doubles -/

section

variable {bits : UInt64}

theorem ofBits_of_exponent_zero
    (he : @unpackExponent Format.binary64 bits.toBitVec = 0#11) : Binary.ofBits bits =
      ⟨(@unpackMantissa Format.binary64 bits.toBitVec).toNat, -1074, false⟩ := by
  unfold Binary.ofBits
  simp only [toNat_and_exponent, toNat_and_mantissa, he]
  rfl

theorem ofBits_of_exponent_ne_zero
    (he : (@unpackExponent Format.binary64 bits.toBitVec).toNat ≠ 0) :
    let m := (@unpackMantissa Format.binary64 bits.toBitVec).toNat
    let e := (@unpackExponent Format.binary64 bits.toBitVec).toNat
    Binary.ofBits bits = ⟨2 ^ 52 + m, e - 1075, decide (m = 0 ∧ e > 1)⟩ := by
  unfold Binary.ofBits
  simp only [toNat_and_exponent, toNat_and_mantissa, if_neg he]
  rfl

/-- A finite double is zero, or a sign and a double in the sense of `Binary`. -/
theorem unpack_cases
    (hfinite : (UnpackedFloat.unpack Format.binary64 bits.toBitVec).isFinite = true) :
    ((Binary.ofBits bits).significand = 0 ∧
        UnpackedFloat.unpack Format.binary64 bits.toBitVec = .zero (signOf bits)) ∨
      ∃ hx : (Binary.ofBits bits).IsDouble, (Binary.ofBits bits).exponent ≤ 971 ∧
        UnpackedFloat.unpack Format.binary64 bits.toBitVec =
          .finite (signOf bits) (Binary.ofBits bits).significand (Binary.ofBits bits).exponent
            hx.pos := by
  have hm : (@unpackMantissa Format.binary64 bits.toBitVec).toNat < 2 ^ 52 :=
    BitVec.isLt _
  have he : (@unpackExponent Format.binary64 bits.toBitVec).toNat < 2 ^ 11 :=
    BitVec.isLt _
  unfold UnpackedFloat.unpack at hfinite ⊢
  simp only [signOf_eq] at hfinite ⊢
  split_ifs at hfinite ⊢ with hall hm₀ he₀ hm₀
  · cases hfinite
  · cases hfinite
  · left
    rw [ofBits_of_exponent_zero he₀]
    exact ⟨congrArg BitVec.toNat hm₀, rfl⟩
  · right
    have hpos : 0 < (@unpackMantissa Format.binary64 bits.toBitVec).toNat :=
      Nat.pos_of_ne_zero fun hzero => hm₀ (BitVec.eq_of_toNat_eq hzero)
    rw [ofBits_of_exponent_zero he₀]
    refine ⟨⟨hpos, Nat.lt_trans hm (by decide), Int.le_refl _, Or.inr rfl, by simp⟩, ?_, ?_⟩
    · exact (by decide : (-1074 : ℤ) ≤ 971)
    · refine finite_congr rfl ?_
      rw [he₀]
      rfl
  · right
    have hne : (@unpackExponent Format.binary64 bits.toBitVec).toNat ≠ 0 :=
      fun hzero => he₀ (BitVec.eq_of_toNat_eq hzero)
    have hlt : (@unpackExponent Format.binary64 bits.toBitVec).toNat ≠ 2047 :=
      fun htop => hall (BitVec.eq_of_toNat_eq htop)
    rw [ofBits_of_exponent_ne_zero hne]
    refine ⟨⟨?_, ?_, ?_, Or.inl ?_, ?_⟩, ?_, finite_congr (toNat_implicitBit _) ?_⟩
    · exact Nat.add_pos_left (by decide) _
    · dsimp only
      omega
    · dsimp only
      omega
    · exact Nat.le_add_right _ _
    · dsimp only
      rw [decide_eq_true_iff]
      omega
    · dsimp only
      omega
    · rfl

end

/-! ## Packing and unpacking -/

theorem pack_normal {s : UnpackedFloat.Sign} {m : ℕ} {e : ℤ} {h : 0 < m} (hlow : 2 ^ 52 ≤ m)
    (hhigh : m < 2 ^ 53) (he : -1074 ≤ e) (he' : e ≤ 971) :
    UnpackedFloat.pack Format.binary64 (.finite s m e h) =
      packComponents Format.binary64 s (BitVec.ofNat 11 (e + 1075).toNat) (BitVec.ofNat 52 m) := by
  have hlog : m.log2 = 52 := (Nat.log2_eq_iff h.ne').mpr ⟨hlow, hhigh⟩
  have hbiased : e + (Format.binary64.exponentBias : ℤ) + ((52 : ℕ) : ℤ) = e + 1075 := by
    change e + (1023 : ℤ) + 52 = e + 1075
    omega
  unfold UnpackedFloat.pack
  dsimp only
  rw [hbiased, if_neg (by omega), if_pos (by rw [hlog]; rfl)]

theorem pack_subnormal {s : UnpackedFloat.Sign} {m : ℕ} {h : 0 < m} (hm : m < 2 ^ 52) :
    UnpackedFloat.pack Format.binary64 (.finite s m (-1074) h) =
      packComponents Format.binary64 s 0#11 (BitVec.ofNat 52 m) := by
  have hlog : m.log2 < 52 := (Nat.log2_lt h.ne').mpr hm
  unfold UnpackedFloat.pack
  dsimp only
  rw [if_neg (by decide), if_neg (by simp [Format.mantissaBits]; omega)]

theorem unpack_pack {x : Binary} (hx : x.IsDouble) (hexponent : x.exponent ≤ 971)
    (s : UnpackedFloat.Sign) :
    UnpackedFloat.unpack Format.binary64
        (UnpackedFloat.pack Format.binary64 (.finite s x.significand x.exponent hx.pos)) =
      .finite s x.significand x.exponent hx.pos := by
  have hlt := hx.lt
  have hpos := hx.pos
  have hleast := hx.exponent
  by_cases hnormal : 2 ^ 52 ≤ x.significand
  · rw [pack_normal hnormal hlt hleast hexponent]
    unfold UnpackedFloat.unpack
    dsimp only
    simp only [unpackExponent_packComponents, unpackMantissa_packComponents,
      unpackSign_packComponents, Sign.ofBitVec_toBitVec]
    have hall : BitVec.ofNat 11 (x.exponent + 1075).toNat ≠ -1#11 := by
      rw [Ne, ← BitVec.toNat_inj, BitVec.toNat_ofNat]
      change _ ≠ 2047
      omega
    have hzero : BitVec.ofNat 11 (x.exponent + 1075).toNat ≠ 0#11 := by
      rw [Ne, ← BitVec.toNat_inj, BitVec.toNat_ofNat]
      change _ ≠ 0
      omega
    rw [if_neg hall, if_neg hzero]
    refine finite_congr ?_ ?_
    · rw [toNat_implicitBit, BitVec.toNat_ofNat]
      omega
    · rw [BitVec.toNat_ofNat]
      change (((x.exponent + 1075).toNat % 2 ^ 11 : ℕ) : ℤ) - 1075 = _
      omega
  · have hsubnormal : x.exponent = -1074 := hx.normal.resolve_left hnormal
    have hm : (BitVec.ofNat 52 x.significand).toNat = x.significand := by
      rw [BitVec.toNat_ofNat]
      omega
    have hzero : BitVec.ofNat 52 x.significand ≠ 0#52 := by
      intro h
      rw [h] at hm
      exact hpos.ne hm
    have hpack : UnpackedFloat.pack Format.binary64 (.finite s x.significand x.exponent hpos) =
        packComponents Format.binary64 s 0#11 (BitVec.ofNat 52 x.significand) := by
      rw [← pack_subnormal (h := hpos) (by omega)]
      exact congrArg _ (finite_congr rfl hsubnormal)
    rw [hpack]
    unfold UnpackedFloat.unpack
    dsimp only
    simp only [unpackExponent_packComponents, unpackMantissa_packComponents,
      unpackSign_packComponents, Sign.ofBitVec_toBitVec]
    rw [if_neg (by decide), if_pos trivial, dif_neg hzero]
    refine finite_congr hm ?_
    rw [hsubnormal]
    rfl

/-! ## The double of a value -/

namespace Binary

/-- The double with a sign and a value. -/
def float (x : Binary) (hx : x.IsDouble) (s : UnpackedFloat.Sign) : Float :=
  .ofModel (.pack (.finite s x.significand x.exponent hx.pos))

theorem unpack_float {x : Binary} (hx : x.IsDouble) (hexponent : x.exponent ≤ 971)
    (s : UnpackedFloat.Sign) :
    (x.float hx s).toModel.unpack = .finite s x.significand x.exponent hx.pos :=
  unpack_pack hx hexponent s

theorem neg_float {x : Binary} (hx : x.IsDouble) (hexponent : x.exponent ≤ 971) :
    -x.float hx .positive = x.float hx .negative := by
  change Float.ofModel (.pack (x.float hx .positive).toModel.unpack.neg) = _
  rw [unpack_float hx hexponent]
  rfl

end Binary

theorem ofModel_pack_unpack (d : Float) : Float.ofModel (.pack d.toModel.unpack) = d := by
  refine Float.toBits_inj.mp (UInt64.toBitVec_inj.mp ?_)
  exact pack_unpack_of_valid d.toModel.valid

/-- A finite double is a zero, or it has a sign and a value. -/
theorem finite_cases {d : Float} (h : d.isFinite = true) :
    ((Binary.ofBits d.toBits).significand = 0 ∧
        d = .ofModel (.pack (.zero (signOf d.toBits)))) ∨
      ∃ hx : (Binary.ofBits d.toBits).IsDouble, (Binary.ofBits d.toBits).exponent ≤ 971 ∧
        d = (Binary.ofBits d.toBits).float hx (signOf d.toBits) := by
  have hd := (ofModel_pack_unpack d).symm
  rcases unpack_cases h with ⟨hzero, hunpack⟩ | ⟨hx, hexponent, hunpack⟩
  · refine Or.inl ⟨hzero, hd.trans ?_⟩
    exact congrArg (fun u => Float.ofModel (.pack u)) hunpack
  · refine Or.inr ⟨hx, hexponent, hd.trans ?_⟩
    exact congrArg (fun u => Float.ofModel (.pack u)) hunpack

/-- A double is finite, or it is infinite or no number. -/
theorem special_cases (d : Float) :
    d.isFinite = true ∧ d.isNaN = false ∨ d = 0.0 / 0.0 ∨ d = 1.0 / 0.0 ∨ d = -(1.0 / 0.0) := by
  have hd := ofModel_pack_unpack d
  have hfinite : d.isFinite = d.toModel.unpack.isFinite := rfl
  have hnan : d.isNaN = d.toModel.unpack.isNaN := rfl
  rw [hfinite, hnan]
  cases hunpack : d.toModel.unpack with
  | finite => exact Or.inl ⟨rfl, rfl⟩
  | zero => exact Or.inl ⟨rfl, rfl⟩
  | notANumber =>
    rw [hunpack] at hd
    refine Or.inr (Or.inl (hd.symm.trans ?_))
    decide +kernel
  | infinity s =>
    rw [hunpack] at hd
    cases s with
    | positive =>
      refine Or.inr (Or.inr (Or.inl (hd.symm.trans ?_)))
      decide +kernel
    | negative =>
      refine Or.inr (Or.inr (Or.inr (hd.symm.trans ?_)))
      decide +kernel

end Residual.Decimal
