import Mathlib
import StepCode.Decimal.Reading

/-!
# Numbers read from decimals

Digits, a point and an exponent always give a number, if only an infinite one: NaN has nothing but
its name.  The arithmetic behind the nearest number is followed through the bits of the result.
-/

namespace StepCode.Decimal

open Float.Model (UnpackedFloat Format)

/-- Bits with room left in the exponent are a number. -/
theorem isNaN_unpack {bits : BitVec Format.binary64.numBits}
    (inRange : UnpackedFloat.unpackExponent bits ≠ -1#_) :
    (UnpackedFloat.unpack Format.binary64 bits).isNaN = false := by
  unfold UnpackedFloat.unpack
  dsimp only
  rw [if_neg inRange]
  split
  · split <;> rfl
  · rfl

/-- Packing keeps what is a number. -/
theorem isNaN_pack {x : UnpackedFloat} (number : x.isNaN = false) :
    (Float.ofModel (.pack x)).isNaN = false := by
  suffices (UnpackedFloat.unpack Format.binary64 (x.pack Format.binary64)).isNaN = false from this
  fun_cases UnpackedFloat.pack Format.binary64 x with
  | case1 => exact absurd number (by decide)
  | case2 sign => cases sign <;> decide
  | case3 sign =>
    apply isNaN_unpack
    simp [UnpackedFloat.packedZero]
  | case4 sign => cases sign <;> decide
  | case5 sign mantissa exponent _ _ biased inRange =>
    have small : biased + 1 < 2048 := Nat.not_le.mp inRange
    apply isNaN_unpack
    simp only [UnpackedFloat.unpackExponent_packComponents, BitVec.neg_one_eq_allOnes, ne_eq,
      ← BitVec.toNat_inj, BitVec.toNat_ofNat, BitVec.toNat_allOnes]
    rw [Nat.mod_eq_of_lt (show biased < 2048 by omega)]
    exact (show biased ≠ 2047 by omega)
  | case6 sign =>
    apply isNaN_unpack
    simp

theorem isNaN_roundWithAccuracy (sign : UnpackedFloat.Sign) (mantissa : Nat) (exponent : Int)
    (accuracy : UnpackedFloat.Accuracy) :
    (UnpackedFloat.roundWithAccuracy Format.binary64 sign mantissa exponent accuracy).isNaN =
      false := by
  unfold UnpackedFloat.roundWithAccuracy
  dsimp only
  split <;> rfl

/-- A finite number other than zero. -/
def isProper (x : Float) : Bool :=
  match x.toModel.unpack with
  | .finite .. => true
  | _ => false

/-- Only infinities and zeros turn numbers into NaN when they are multiplied or divided by. -/
theorem isNaN_scaled {x y : Float} (number : x.isNaN = false) (proper : isProper y = true) :
    (x * y).isNaN = false ∧ (x / y).isNaN = false := by
  suffices (x.toModel.unpack.mul Format.binary64 y.toModel.unpack).isNaN = false ∧
      (x.toModel.unpack.div Format.binary64 y.toModel.unpack).isNaN = false from
    ⟨isNaN_pack this.1, isNaN_pack this.2⟩
  have number : x.toModel.unpack.isNaN = false := number
  unfold isProper at proper
  split at proper
  next unpacked =>
    rw [unpacked]
    revert number
    cases x.toModel.unpack with
    | notANumber => exact nofun
    | infinity sign => exact fun _ => ⟨rfl, rfl⟩
    | zero sign => exact fun _ => ⟨rfl, rfl⟩
    | finite sign mantissa exponent _ =>
      exact fun _ => ⟨isNaN_roundWithAccuracy .., isNaN_roundWithAccuracy ..⟩
  next => simp at proper

theorem isNaN_neg {x : Float} (number : x.isNaN = false) : (-x).isNaN = false := by
  apply isNaN_pack
  have number : x.toModel.unpack.isNaN = false := number
  revert number
  cases x.toModel.unpack with
  | notANumber => exact nofun
  | infinity | zero | finite => exact fun _ => rfl

theorem isNaN_ofInt (n : Int) : (UnpackedFloat.ofInt Format.binary64 n).isNaN = false := by
  unfold UnpackedFloat.ofInt UnpackedFloat.normalize
  split
  · exact isNaN_roundWithAccuracy ..
  · rfl
  · exact isNaN_roundWithAccuracy ..

theorem isProper_power (exponent : Fin 23) :
    isProper Float.exactlyRepresentablePowersOfTen[exponent] = true := by
  revert exponent
  decide

theorem isNaN_ofScientific (digits : Nat) (negative : Bool) (exponent : Nat) :
    (Float.ofScientific digits negative exponent).isNaN = false := by
  unfold Float.ofScientific
  split
  next small =>
    have power := isProper_power ⟨exponent, by omega⟩
    have number : digits.toUInt64.toFloat.isNaN = false := isNaN_pack (isNaN_ofInt _)
    dsimp only
    split
    · exact (isNaN_scaled number power).2
    · exact (isNaN_scaled number power).1
  next =>
    apply isNaN_pack
    generalize (if negative = true then Int.negOfNat exponent else Int.ofNat exponent) = exponent
    unfold UnpackedFloat.ofScientific
    split_ifs
    · rfl
    · rfl
    · rfl
    · exact isNaN_roundWithAccuracy ..
    · exact isNaN_roundWithAccuracy ..

theorem isNaN_nearest (digits : Nat) (exponent : Int) : (nearest digits exponent).isNaN = false := by
  unfold nearest
  dsimp only
  split_ifs
  · decide
  · decide
  · decide
  · exact isNaN_ofScientific ..

/-- What begins with a digit or a point is no name. -/
theorem readName_eq_none {c : Char} (rest : List Char) (plain : c.isDigit = true ∨ c = '.') :
    readName (c :: rest) = none := by
  have same : c.toLower = c := by
    rcases plain with digit | rfl
    · have range : 48 ≤ c.toNat ∧ c.toNat ≤ 57 := by
        simpa [Char.isDigit, UInt32.le_iff_toNat_le] using digit
      have small : ¬ 65 ≤ c.toNat := by omega
      simp [Char.toLower, UInt32.le_iff_toNat_le, small]
    · rfl
  have other : c ≠ 'i' ∧ c ≠ 'n' := by
    constructor <;> (rintro rfl; simp at plain)
  unfold readName
  split
  next named => exact absurd (congrArg String.toList named) (by simp [same, other.1])
  next named => exact absurd (congrArg String.toList named) (by simp [same, other.1])
  next named => exact absurd (congrArg String.toList named) (by simp [same, other.2])
  next => rfl

/-- A text that is no name is never read as NaN. -/
theorem isNaN_of_read? {chars : List Char} {x : Float} (read : read? chars = some x)
    (unnamed : readName (splitSign chars).2 = none) : x.isNaN = false := by
  unfold read? at read
  obtain ⟨minus, rest⟩ := splitSign chars
  dsimp only at read unnamed
  rw [unnamed] at read
  obtain ⟨magnitude, isMagnitude, rfl⟩ := Option.map_eq_some_iff.mp read
  have number : magnitude.isNaN = false := by
    split at isMagnitude
    · obtain rfl := Option.some.inj isMagnitude
      exact isNaN_nearest ..
    · simp at isMagnitude
  split
  · exact isNaN_neg number
  · exact number

end StepCode.Decimal
