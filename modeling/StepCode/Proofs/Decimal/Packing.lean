import StepCode.Decimal.Style
import StepCode.Proofs.Decimal.Rounding

/-!
# Bits

Packing a value in the shape of the format and unpacking its bits are inverse to each other.
-/

namespace StepCode.Decimal

open Float.Model (UnpackedFloat Format)
open Float.Model.UnpackedFloat

section

variable (sign : Sign) (exponent : BitVec Format.binary64.exponentBits)
  (fraction : BitVec Format.binary64.mantissaBitsWithoutImplicit)
  (bits : BitVec Format.binary64.numBits)

theorem ofBitVec_toBitVec : Sign.ofBitVec sign.toBitVec = sign := by
  cases sign <;> rfl

theorem toBitVec_ofBitVec (bit : BitVec 1) : (Sign.ofBitVec bit).toBitVec = bit := by
  revert bit
  decide

theorem unpackSign_packComponents :
    unpackSign (packComponents .binary64 sign exponent fraction) = sign.toBitVec := by
  simp only [packComponents, unpackSign, BitVec.extractLsb]
  ext place inRange
  grind

/-- A bit pattern consists of its three parts. -/
theorem packComponents_unpack :
    packComponents .binary64 (Sign.ofBitVec (unpackSign bits)) (unpackExponent bits)
      (unpackMantissa bits) = bits := by
  simp only [packComponents, toBitVec_ofBitVec, unpackSign, unpackExponent, unpackMantissa,
    BitVec.extractLsb]
  ext place inRange
  grind

theorem toNat_leadingOne : (1#1 ++ fraction).toNat = 2 ^ 52 + fraction.toNat := by
  rw [BitVec.toNat_append, ← Nat.shiftLeft_add_eq_or_of_lt fraction.isLt]
  simp [Nat.shiftLeft_eq]

theorem toNat_packComponents : (packComponents .binary64 sign exponent fraction).toNat =
    sign.toBitVec.toNat * 2 ^ 63 + exponent.toNat * 2 ^ 52 + fraction.toNat := by
  have behind : exponent.toNat < 2 ^ 11 := exponent.isLt
  rw [packComponents, BitVec.toNat_append, BitVec.toNat_append,
    ← Nat.shiftLeft_add_eq_or_of_lt exponent.isLt, ← Nat.shiftLeft_add_eq_or_of_lt fraction.isLt]
  simp only [Nat.shiftLeft_eq]
  omega

end

theorem exponentBias_eq : Format.binary64.exponentBias = 1023 := rfl

theorem mantissaBits_eq : Format.binary64.mantissaBits = 53 := rfl

/-! ## Finite values -/

/-- The mantissa that two parts of the bits stand for.  But for the least exponent its leading bit is
left out. -/
def mantissaOf (field : BitVec 11) (fraction : BitVec 52) : Nat :=
  if field = 0#11 then fraction.toNat else 2 ^ 52 + fraction.toNat

/-- The exponent that a part of the bits stands for. -/
def exponentOf (field : BitVec 11) : Int :=
  if field = 0#11 then -1074 else field.toNat - 1075

section

variable {field : BitVec 11} {fraction : BitVec 52}

theorem toNat_ne_zero (nonzero : field ≠ 0#11) : field.toNat ≠ 0 := by
  simpa [← BitVec.toNat_inj] using nonzero

theorem canonical_parts (positive : 0 < mantissaOf field fraction) :
    Canonical (mantissaOf field fraction) (exponentOf field) := by
  have inRange := fraction.isLt
  refine ⟨positive, ?_, ?_, ?_⟩
  · unfold mantissaOf
    split <;> omega
  · unfold exponentOf
    split
    · exact le_rfl
    next nonzero =>
      have := toNat_ne_zero nonzero
      omega
  · unfold mantissaOf exponentOf
    split
    · exact .inr rfl
    · exact .inl (Nat.le_add_right _ _)

theorem toNat_lt_top (finite : field ≠ -1#11) : field.toNat < 2047 := by
  have notTop : field.toNat ≠ 2047 := by simpa [← BitVec.toNat_inj] using finite
  have := field.isLt
  omega

theorem exponentOf_le (finite : field ≠ -1#11) : exponentOf field ≤ 971 := by
  have := toNat_lt_top finite
  unfold exponentOf
  split <;> omega

/-- Every value in its shape has bits. -/
theorem Canonical.exists_parts {mantissa : Nat} {exponent : Int}
    (canonical : Canonical mantissa exponent) (small : exponent ≤ 971) :
    ∃ field fraction, field ≠ -1#11 ∧ mantissaOf field fraction = mantissa ∧
      exponentOf field = exponent := by
  obtain ⟨positive, bounded, least, full⟩ := canonical
  by_cases normal : 2 ^ 52 ≤ mantissa
  · have isField : (BitVec.ofNat 11 (exponent + 1075).toNat).toNat = (exponent + 1075).toNat := by
      rw [BitVec.toNat_ofNat, Nat.mod_eq_of_lt (by omega)]
    have nonzero : BitVec.ofNat 11 (exponent + 1075).toNat ≠ 0#11 := by
      rw [ne_eq, ← BitVec.toNat_inj, isField, BitVec.toNat_zero]
      omega
    refine ⟨.ofNat 11 (exponent + 1075).toNat, .ofNat 52 mantissa, ?_, ?_, ?_⟩
    · rw [ne_eq, ← BitVec.toNat_inj, isField]
      simp
      omega
    · rw [mantissaOf, if_neg nonzero, BitVec.toNat_ofNat]
      omega
    · rw [exponentOf, if_neg nonzero, isField]
      omega
  · refine ⟨0#11, .ofNat 52 mantissa, by decide, ?_, ?_⟩
    · rw [mantissaOf, if_pos rfl, BitVec.toNat_ofNat, Nat.mod_eq_of_lt (by omega)]
    · rw [exponentOf, if_pos rfl]
      exact (full.resolve_left normal).symm

theorem unpack_packComponents (sign : Sign) (finite : field ≠ -1#11)
    (positive : 0 < mantissaOf field fraction) :
    unpack .binary64 (packComponents .binary64 sign field fraction) =
      .finite sign (mantissaOf field fraction) (exponentOf field) positive := by
  simp only [unpack, unpackMantissa_packComponents, unpackExponent_packComponents,
    unpackSign_packComponents, ofBitVec_toBitVec, exponentBias_eq]
  rw [if_neg finite]
  by_cases least : field = 0#11
  · subst least
    have nonzero : fraction ≠ 0#52 := by
      rintro rfl
      simp [mantissaOf] at positive
    rw [if_pos rfl, dif_neg nonzero]
    rfl
  · rw [if_neg least]
    have whole := toNat_leadingOne fraction
    simp only [whole, mantissaOf, exponentOf, least, if_false]
    rfl

theorem pack_parts (sign : Sign) (finite : field ≠ -1#11)
    (positive : 0 < mantissaOf field fraction) :
    pack .binary64 (.finite sign (mantissaOf field fraction) (exponentOf field) positive) =
      packComponents .binary64 sign field fraction := by
  have inRange := toNat_lt_top finite
  have small := fraction.isLt
  simp only [pack, exponentBias_eq, mantissaBits_eq]
  by_cases least : field = 0#11
  · subst least
    have bits : ¬ fraction.toNat.log2 + 1 = 53 := by
      have nonzero : fraction.toNat ≠ 0 := positive.ne'
      have := (Nat.log2_lt nonzero).mpr small
      omega
    have noMore : ¬ 2 ^ 11 ≤ (exponentOf 0#11 + (1023 : Nat) + (52 : Nat)).toNat + 1 := by decide
    refine (if_neg noMore).trans ((if_neg bits).trans ?_)
    simp [mantissaOf]
  · have isField : (exponentOf field + (1023 : Nat) + (52 : Nat)).toNat = field.toNat := by
      rw [exponentOf, if_neg least]
      omega
    have isMantissa : mantissaOf field fraction = 2 ^ 52 + fraction.toNat := if_neg least
    have bits : (2 ^ 52 + fraction.toNat).log2 + 1 = 53 := by
      rw [Nat.add_right_cancel_iff, Nat.log2_eq_iff (by omega)]
      omega
    have noMore : ¬ 2 ^ 11 ≤ field.toNat + 1 := by omega
    have same : BitVec.ofNat 52 (2 ^ 52 + fraction.toNat) = fraction := by
      rw [← BitVec.toNat_inj, BitVec.toNat_ofNat]
      omega
    simp only [isField, isMantissa]
    refine (if_neg noMore).trans ((if_pos bits).trans ?_)
    rw [same, BitVec.ofNat_toNat]
    simp

/-- A value in its shape is restored from its bits. -/
theorem unpack_pack (sign : Sign) {mantissa : Nat} {exponent : Int}
    (canonical : Canonical mantissa exponent) (small : exponent ≤ 971) :
    unpack .binary64 (pack .binary64 (.finite sign mantissa exponent canonical.positive)) =
      .finite sign mantissa exponent canonical.positive := by
  obtain ⟨field, fraction, finite, rfl, rfl⟩ := canonical.exists_parts small
  rw [pack_parts sign finite canonical.positive]
  exact unpack_packComponents sign finite canonical.positive

end

/-! ## Numbers -/

theorem ofModel_pack_eq {x : Float} {unpacked : UnpackedFloat}
    (packed : pack .binary64 unpacked = x.toBits.toBitVec) : Float.ofModel (.pack unpacked) = x := by
  obtain ⟨⟨bits, valid⟩⟩ := x
  have same : UInt64.ofBitVec (pack .binary64 unpacked) = bits := by
    rw [packed]
    rfl
  simp only [Float.Model.pack, same]

/-- A finite number other than zero, taken apart. -/
structure HasParts (x : Float) (sign : Sign) (mantissa : Nat) (exponent : Int) : Prop where
  canonical : Canonical mantissa exponent
  small : exponent ≤ 971
  packed : Float.ofModel (.pack (.finite sign mantissa exponent canonical.positive)) = x
  magnitude : Binary.ofBits x.toBits =
    ⟨mantissa, exponent, decide (NarrowBelow mantissa exponent)⟩
  negative : isNegative x = true ↔ sign = .negative

/-- A finite number is a zero or has parts. -/
theorem parts_of_isFinite {x : Float} (finite : x.isFinite = true) :
    ∃ sign, (isNegative x = true ↔ sign = .negative) ∧
      (Float.ofModel (.pack (.zero sign)) = x ∧ (Binary.ofBits x.toBits).significand = 0 ∨
        ∃ mantissa exponent, HasParts x sign mantissa exponent) := by
  obtain ⟨sign, field, fraction, isBits⟩ : ∃ sign, ∃ field : BitVec 11, ∃ fraction : BitVec 52,
      packComponents .binary64 sign field fraction = x.toBits.toBitVec :=
    ⟨_, _, _, packComponents_unpack x.toBits.toBitVec⟩
  have isNat : x.toBits.toNat = sign.toBitVec.toNat * 2 ^ 63 + field.toNat * 2 ^ 52 + fraction.toNat :=
    (congrArg BitVec.toNat isBits).symm.trans (toNat_packComponents sign field fraction)
  have fieldRange := field.isLt
  have fractionRange := fraction.isLt
  have negative : isNegative x = true ↔ sign = .negative := by
    rw [isNegative, decide_eq_true_eq, isNat]
    cases sign with
    | positive =>
        have bit : Sign.positive.toBitVec.toNat = 0 := rfl
        simp
        omega
    | negative =>
        have bit : Sign.negative.toBitVec.toNat = 1 := rfl
        simp
        omega
  have notTop : field ≠ -1#11 := by
    rintro rfl
    have finite : (unpack .binary64 x.toBits.toBitVec).isFinite = true := finite
    rw [← isBits] at finite
    simp only [unpack, unpackExponent_packComponents, unpackMantissa_packComponents, if_true] at finite
    split at finite <;> cases finite
  have isField : x.toBits.toNat / Nat.pow 2 52 % Nat.pow 2 11 = field.toNat := by
    simp only [Nat.pow_eq]
    omega
  have isFraction : x.toBits.toNat % Nat.pow 2 52 = fraction.toNat := by
    simp only [Nat.pow_eq]
    omega
  have magnitude : Binary.ofBits x.toBits = ⟨mantissaOf field fraction, exponentOf field,
      decide (NarrowBelow (mantissaOf field fraction) (exponentOf field))⟩ := by
    simp only [Binary.ofBits, isField, isFraction]
    by_cases least : field = 0#11
    · subst least
      simp [mantissaOf, exponentOf, NarrowBelow]
    · have nonzero := toNat_ne_zero least
      have narrow : (fraction.toNat == 0 && decide (field.toNat > 1)) =
          decide (NarrowBelow (2 ^ 52 + fraction.toNat) (field.toNat - 1075)) := by
        rw [Bool.eq_iff_iff, Bool.and_eq_true, beq_iff_eq, decide_eq_true_eq, decide_eq_true_eq,
          NarrowBelow]
        omega
      simp only [nonzero, if_false, mantissaOf, exponentOf, least, narrow]
      rfl
  refine ⟨_, negative, ?_⟩
  by_cases zero : mantissaOf field fraction = 0
  · have isZero : field = 0#11 ∧ fraction = 0#52 := by
      unfold mantissaOf at zero
      split at zero
      next least => exact ⟨least, BitVec.toNat_inj.mp zero⟩
      next => omega
    obtain ⟨rfl, rfl⟩ := isZero
    exact .inl ⟨ofModel_pack_eq isBits, by rw [magnitude]; exact zero⟩
  · have positive := Nat.pos_of_ne_zero zero
    exact .inr ⟨_, _, canonical_parts positive, exponentOf_le notTop,
      ofModel_pack_eq ((pack_parts sign notTop positive).trans isBits), magnitude, negative⟩

end StepCode.Decimal
