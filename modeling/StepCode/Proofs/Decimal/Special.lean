import StepCode.Number
import StepCode.Proofs.Decimal
import StepCode.Proofs.Decimal.Packing

/-!
# Zeros, infinities and NaN

Whoever divides by a zero or an infinity and multiplies back gets NaN, whatever was divided.  The whole
part of a number is a number, and that of a zero, an infinity or NaN is itself.
-/

namespace StepCode

open Float.Model (UnpackedFloat Format)
open Float.Model.UnpackedFloat

/-! ## Packed numbers -/

/-- Zeros, infinities and NaN. -/
def Special : UnpackedFloat → Prop
  | .finite .. => False
  | _ => True

/-- Every number is restored from its parts. -/
theorem ofModel_pack_unpack (x : Float) : Float.ofModel (.pack x.toModel.unpack) = x := by
  refine Decimal.ofModel_pack_eq ?_
  have valid := x.toModel.valid.eq_packedNaN
  change pack .binary64 (unpack .binary64 x.toModel.toBits.toBitVec) = x.toModel.toBits.toBitVec
  have parts := Decimal.packComponents_unpack x.toModel.toBits.toBitVec
  generalize Sign.ofBitVec (@unpackSign .binary64 x.toModel.toBits.toBitVec) = sign at parts
  generalize @unpackExponent .binary64 x.toModel.toBits.toBitVec = field at parts valid
  generalize @unpackMantissa .binary64 x.toModel.toBits.toBitVec = fraction at parts valid
  rw [← parts] at valid ⊢
  by_cases top : field = -1#11
  · by_cases whole : fraction = 0#52
    · subst top whole
      cases sign <;> rfl
    · rw [valid top whole]
      rfl
  · by_cases positive : 0 < Decimal.mantissaOf field fraction
    · rw [Decimal.unpack_packComponents sign top positive, Decimal.pack_parts sign top positive]
    · obtain ⟨rfl, rfl⟩ : field = 0#11 ∧ fraction = 0#52 := by
        unfold Decimal.mantissaOf at positive
        split at positive
        next least => exact ⟨least, BitVec.toNat_inj.mp (Nat.eq_zero_of_not_pos positive)⟩
        next => omega
      cases sign <;> rfl

theorem unpack_ofModel_pack {unpacked : UnpackedFloat} (special : Special unpacked) :
    (Float.ofModel (.pack unpacked)).toModel.unpack = unpacked := by
  cases unpacked with
  | notANumber => rfl
  | infinity sign => cases sign <;> rfl
  | zero sign => cases sign <;> rfl
  | finite => exact special.elim

section

variable {x y : Float} {result : UnpackedFloat}

theorem unpack_div (special : Special result)
    (quotient : UnpackedFloat.div .binary64 x.toModel.unpack y.toModel.unpack = result) :
    (x / y).toModel.unpack = result := by
  subst quotient
  exact unpack_ofModel_pack special

theorem unpack_mul (special : Special result)
    (product : UnpackedFloat.mul .binary64 x.toModel.unpack y.toModel.unpack = result) :
    (x * y).toModel.unpack = result := by
  subst product
  exact unpack_ofModel_pack special

theorem unpack_sub (special : Special result)
    (difference : UnpackedFloat.sub .binary64 x.toModel.unpack y.toModel.unpack = result) :
    (x - y).toModel.unpack = result := by
  subst difference
  exact unpack_ofModel_pack special

/-! ## NaN -/

theorem isNaN_iff : x.isNaN = true ↔ x.toModel.unpack = .notANumber := by
  change x.toModel.unpack.isNaN = true ↔ _
  cases x.toModel.unpack <;> simp [UnpackedFloat.isNaN]

/-- There is one NaN only. -/
theorem eq_nan_of_isNaN (notNumber : x.isNaN = true) : x = Number.nan := by
  rw [← ofModel_pack_unpack x, isNaN_iff.mp notNumber]
  rfl

theorem isNaN_mul_right (x : Float) (notNumber : y.isNaN = true) : (x * y).isNaN = true := by
  refine isNaN_iff.mpr (unpack_mul trivial ?_)
  rw [isNaN_iff.mp notNumber]
  cases x.toModel.unpack <;> rfl

theorem isNaN_sub_right (x : Float) (notNumber : y.isNaN = true) : (x - y).isNaN = true := by
  refine isNaN_iff.mpr (unpack_sub trivial ?_)
  rw [isNaN_iff.mp notNumber]
  cases x.toModel.unpack <;> rfl

/-- Only zeros and infinities turn numbers into NaN when they are multiplied with them. -/
theorem isNaN_mul_left (proper : Decimal.isProper x = true) (number : y.isNaN = false) :
    (x * y).isNaN = false := by
  suffices (x.toModel.unpack.mul .binary64 y.toModel.unpack).isNaN = false from
    Decimal.isNaN_pack this
  have number : y.toModel.unpack.isNaN = false := number
  unfold Decimal.isProper at proper
  cases isX : x.toModel.unpack with
  | finite sign mantissa exponent positive =>
      cases isY : y.toModel.unpack with
      | notANumber => rw [isY] at number; cases number
      | infinity | zero => rfl
      | finite => exact Decimal.isNaN_roundWithAccuracy ..
  | notANumber | infinity | zero => rw [isX] at proper; cases proper

/-! ## Whole parts -/

theorem floor_of_special (special : Special x.toModel.unpack) : Number.floor x = x := by
  unfold Number.floor
  refine if_pos ?_
  change (x.toModel.unpack.isNaN || x.toModel.unpack.isInf ||
    x.toModel.unpack.beq (.zero .positive)) = true
  cases unpacked : x.toModel.unpack with
  | notANumber => rfl
  | infinity => rfl
  | zero => rfl
  | finite => rw [unpacked] at special; exact special.elim

theorem isNaN_ofNat (n : Nat) : (Float.ofNat n).isNaN = false :=
  Decimal.isNaN_ofScientific n false 0

theorem isNaN_floor (number : x.isNaN = false) : (Number.floor x).isNaN = false := by
  unfold Number.floor
  dsimp only
  split_ifs
  · exact number
  · exact number
  · exact Decimal.isNaN_neg (isNaN_ofNat _)
  · exact isNaN_ofNat _

/-! ## Zeros -/

theorem beq_self (number : x.isNaN = false) : (x == x) = true := by
  have number : x.toModel.unpack.isNaN = false := number
  change x.toModel.unpack.beq x.toModel.unpack = true
  cases unpacked : x.toModel.unpack with
  | notANumber => rw [unpacked] at number; cases number
  | infinity sign => cases sign <;> rfl
  | zero sign => rfl
  | finite sign mantissa exponent => cases sign <;> simp [UnpackedFloat.beq, UnpackedFloat.compare]

/-- Taking away a zero changes no more than the sign of a zero. -/
theorem sub_zero_beq (number : x.isNaN = false) {sign : Sign} (zero : y.toModel.unpack = .zero sign) :
    (x - y == x) = true := by
  have kept (same : UnpackedFloat.sub .binary64 x.toModel.unpack (.zero sign) = x.toModel.unpack) :
      (x - y == x) = true := by
    have isDifference : x - y = Float.ofModel (.pack x.toModel.unpack) := by
      rw [← same, ← zero]
      rfl
    rw [isDifference, ofModel_pack_unpack]
    exact beq_self number
  cases unpacked : x.toModel.unpack with
  | notANumber => rw [isNaN_iff.mpr unpacked] at number; cases number
  | infinity | finite => exact kept (by rw [unpacked]; rfl)
  | zero other =>
      have difference : (x - y).toModel.unpack =
          if other == -sign then .zero other else .zero .positive := by
        refine unpack_sub ?_ (by rw [unpacked, zero]; rfl)
        split <;> trivial
      change (x - y).toModel.unpack.beq x.toModel.unpack = true
      rw [difference, unpacked]
      split <;> rfl

/-! ## Division by a zero or an infinity -/

theorem unpack_of_not_isProper (number : y.isNaN = false) (improper : Decimal.isProper y = false) :
    ∃ sign, y.toModel.unpack = .zero sign ∨ y.toModel.unpack = .infinity sign := by
  unfold Decimal.isProper at improper
  cases unpacked : y.toModel.unpack with
  | notANumber => rw [isNaN_iff.mpr unpacked] at number; cases number
  | infinity sign => exact ⟨sign, .inr rfl⟩
  | zero sign => exact ⟨sign, .inl rfl⟩
  | finite => rw [unpacked] at improper; cases improper

/-- A special quotient is its own whole part; here it cannot be multiplied back. -/
theorem quotient_lost (result : UnpackedFloat) (special : Special result)
    (number : result.isNaN = false)
    (quotient : UnpackedFloat.div .binary64 x.toModel.unpack y.toModel.unpack = result)
    (product : UnpackedFloat.mul .binary64 y.toModel.unpack result = .notANumber) :
    (x / y).isNaN = false ∧ Number.floor (x / y) = x / y ∧ (y * (x / y)).isNaN = true := by
  have isQuotient := unpack_div special quotient
  refine ⟨?_, floor_of_special (isQuotient ▸ special), ?_⟩
  · change (x / y).toModel.unpack.isNaN = false
    rw [isQuotient]
    exact number
  · exact isNaN_iff.mpr (unpack_mul trivial (isQuotient ▸ product))

/-- What comes of dividing by a zero or an infinity is NaN, or cannot be multiplied back. -/
theorem quotient_of_not_isProper (isX : x.isNaN = false) (isY : y.isNaN = false)
    (improper : Decimal.isProper y = false) :
    (x / y).isNaN = true ∨
      (x / y).isNaN = false ∧ Number.floor (x / y) = x / y ∧ (y * (x / y)).isNaN = true := by
  obtain ⟨sign, zero | infinite⟩ := unpack_of_not_isProper isY improper
  · cases dividend : x.toModel.unpack with
    | notANumber => rw [isNaN_iff.mpr dividend] at isX; cases isX
    | zero other => exact .inl (isNaN_iff.mpr (unpack_div trivial (by rw [dividend, zero]; rfl)))
    | infinity other | finite other =>
        refine .inr (quotient_lost (.infinity (other / sign)) trivial rfl ?_ ?_)
        · rw [dividend, zero]; rfl
        · rw [zero]; rfl
  · cases dividend : x.toModel.unpack with
    | notANumber => rw [isNaN_iff.mpr dividend] at isX; cases isX
    | infinity other => exact .inl (isNaN_iff.mpr (unpack_div trivial (by rw [dividend, infinite]; rfl)))
    | zero other | finite other =>
        refine .inr (quotient_lost (.zero (other / sign)) trivial rfl ?_ ?_)
        · rw [dividend, infinite]; rfl
        · rw [infinite]; rfl

end

end StepCode
