import Mathlib
import StepCode.Decimal.Binary

/-!
# Rounding

Floating-point operations compute a mantissa with two bits for what lies behind it, and shift it to
the exponent of the result.  The numbers that come out as a given value are those nearer to it than
to its neighbours; of two values that are equally near, the one with an even mantissa comes out.
-/

namespace StepCode.Decimal

open Float.Model (UnpackedFloat Format totalExponent)
open Float.Model.UnpackedFloat

/-! ## Mantissas with what lies behind them -/

/-- The number has the mantissa as its integer part, and the two bits say what lies behind it. -/
def Represents (extended : ExtendedMantissa) (x : ℚ) : Prop :=
  match extended.roundBit, extended.stickyBit with
  | false, false => x = extended.mantissa
  | false, true => extended.mantissa < x ∧ x < extended.mantissa + 1 / 2
  | true, false => x = extended.mantissa + 1 / 2
  | true, true => extended.mantissa + 1 / 2 < x ∧ x < extended.mantissa + 1

namespace Represents

variable {extended : ExtendedMantissa} {x : ℚ}

theorem exact (mantissa : Nat) :
    Represents (.ofMantissaAndAccuracy mantissa .exact) mantissa := rfl

theorem bounds (represents : Represents extended x) :
    extended.mantissa ≤ x ∧ x < extended.mantissa + 1 := by
  obtain ⟨mantissa, round, sticky⟩ := extended
  cases round <;> cases sticky <;> simp only [Represents] at represents
  · exact ⟨represents.ge, by linarith⟩
  · exact ⟨represents.1.le, by linarith [represents.2]⟩
  · constructor <;> linarith
  · exact ⟨by linarith [represents.1], represents.2⟩

theorem shiftRightOne_even (half : Nat) (round sticky : Bool) :
    ExtendedMantissa.shiftRightOne ⟨2 * half, round, sticky⟩ = ⟨half, false, round || sticky⟩ := by
  simp [ExtendedMantissa.shiftRightOne]

theorem shiftRightOne_odd (half : Nat) (round sticky : Bool) :
    ExtendedMantissa.shiftRightOne ⟨2 * half + 1, round, sticky⟩ =
      ⟨half, true, round || sticky⟩ := by
  have whole : (2 * half + 1) / 2 = half := by omega
  simp [ExtendedMantissa.shiftRightOne, whole]

theorem shiftRightOne (represents : Represents extended x) :
    Represents extended.shiftRightOne (x / 2) := by
  obtain ⟨mantissa, round, sticky⟩ := extended
  obtain ⟨half, rfl | rfl⟩ := Nat.even_or_odd' mantissa
  · rw [shiftRightOne_even]
    cases round <;> cases sticky <;> simp only [Represents, Bool.or_false, Bool.or_true] at * <;>
      push_cast at represents <;> (try constructor) <;> linarith
  · rw [shiftRightOne_odd]
    cases round <;> cases sticky <;> simp only [Represents, Bool.or_false, Bool.or_true] at * <;>
      push_cast at represents <;> (try constructor) <;> linarith

theorem shiftRight (represents : Represents extended x) (count : Nat) :
    Represents (extended >>> count) (x / 2 ^ count) := by
  change Represents (count.repeat ExtendedMantissa.shiftRightOne extended) _
  induction count with
  | zero => simpa [Nat.repeat] using represents
  | succ count ih =>
      rw [pow_succ, ← div_div]
      exact ih.shiftRightOne

/-- The rounded mantissa is the nearest integer, and the even one of two that are equally near. -/
theorem roundedMantissa_eq (represents : Represents extended x) {nearest : Nat}
    (lower : (nearest : ℚ) - 1 / 2 ≤ x) (upper : x ≤ nearest + 1 / 2)
    (tie : x = nearest - 1 / 2 ∨ x = nearest + 1 / 2 → nearest % 2 = 0) :
    extended.roundedMantissa = nearest := by
  obtain ⟨mantissa, round, sticky⟩ := extended
  cases round <;> cases sticky <;>
    simp only [Represents, ExtendedMantissa.roundedMantissa, ExtendedMantissa.accuracy,
      Accuracy.roundToNearestEven] at represents ⊢
  · have below : (mantissa : ℚ) < nearest + 1 := by linarith
    have above : (nearest : ℚ) < mantissa + 1 := by linarith
    norm_cast at below above
    omega
  · have below : (mantissa : ℚ) < nearest + 1 := by linarith [represents.1]
    have above : (nearest : ℚ) < mantissa + 1 := by linarith [represents.2]
    norm_cast at below above
    omega
  · have below : (mantissa : ℚ) ≤ nearest := by linarith
    have above : (nearest : ℚ) ≤ mantissa + 1 := by linarith
    norm_cast at below above
    rcases Nat.eq_or_lt_of_le below with same | less
    · have even := tie (.inr (by rw [represents, same]))
      omega
    · obtain rfl : nearest = mantissa + 1 := by omega
      have even := tie (.inl (by rw [represents]; push_cast; ring))
      omega
  · have below : (mantissa : ℚ) < nearest := by linarith [represents.1]
    have above : (nearest : ℚ) < mantissa + 2 := by linarith [represents.2]
    norm_cast at below above
    omega

end Represents

/-! ## Values in the format -/

/-- A magnitude in the shape in which the format has it: with as many bits as there is room for,
unless it has the least exponent. -/
structure Canonical (mantissa : Nat) (exponent : Int) : Prop where
  positive : 0 < mantissa
  bounded : mantissa < 2 ^ 53
  least : -1074 ≤ exponent
  full : 2 ^ 52 ≤ mantissa ∨ exponent = -1074

/-- The value below is half as far away as the value above. -/
def NarrowBelow (mantissa : Nat) (exponent : Int) : Prop :=
  mantissa = 2 ^ 52 ∧ -1074 < exponent

instance (mantissa : Nat) (exponent : Int) : Decidable (NarrowBelow mantissa exponent) :=
  inferInstanceAs (Decidable (_ ∧ _))

/-- The number, given as a multiple of the unit of the value's last place, is rounded to the value. -/
structure RoundsTo (mantissa : Nat) (exponent : Int) (x : ℚ) : Prop where
  lower : (mantissa : ℚ) - (if NarrowBelow mantissa exponent then 1 / 4 else 1 / 2) ≤ x
  upper : x ≤ mantissa + 1 / 2
  tie : x = mantissa - (if NarrowBelow mantissa exponent then 1 / 4 else 1 / 2) ∨
    x = mantissa + 1 / 2 → mantissa % 2 = 0

/-- A value rounds to itself. -/
theorem roundsTo_self {mantissa : Nat} {place : Int} : RoundsTo mantissa place mantissa := by
  refine ⟨?_, by linarith, ?_⟩
  · split <;> linarith
  · rintro (low | high)
    · split at low <;> linarith
    · linarith

theorem targetExponent_eq (total : Int) :
    Format.binary64.targetExponent total = max (total - 53) (-1074) := by
  simp [Format.targetExponent, Format.minExponent, Format.mantissaBits]

section

variable {mantissa : Nat} {exponent place : Int} {value : ℚ}

theorem totalExponent_le (nonzero : mantissa ≠ 0) (lower : (mantissa : ℚ) * 2 ^ exponent ≤ value)
    (upper : value < 2 ^ place) : totalExponent mantissa exponent ≤ place := by
  have leading : (2 : ℚ) ^ (mantissa.log2 + exponent : Int) < 2 ^ place := by
    calc (2 : ℚ) ^ (mantissa.log2 + exponent : Int)
        = (2 ^ mantissa.log2 : Nat) * 2 ^ exponent := by
          rw [zpow_add₀ two_ne_zero, zpow_natCast]
          push_cast
          rfl
      _ ≤ mantissa * 2 ^ exponent := by
          gcongr
          exact_mod_cast Nat.log2_self_le nonzero
      _ < 2 ^ place := lower.trans_lt upper
  have := (zpow_lt_zpow_iff_right₀ one_lt_two).mp leading
  unfold totalExponent
  omega

theorem lt_totalExponent (upper : value < (mantissa + 1 : ℚ) * 2 ^ exponent)
    (lower : 2 ^ place ≤ value) : place < totalExponent mantissa exponent := by
  refine (zpow_lt_zpow_iff_right₀ (one_lt_two (α := ℚ))).mp ?_
  calc (2 : ℚ) ^ place < (mantissa + 1 : ℚ) * 2 ^ exponent := lower.trans_lt upper
    _ ≤ (2 ^ (mantissa.log2 + 1) : Nat) * 2 ^ exponent := by
        gcongr
        exact_mod_cast Nat.lt_log2_self
    _ = 2 ^ totalExponent mantissa exponent := by
        rw [totalExponent, zpow_add₀ two_ne_zero]
        push_cast
        rfl

end

/-- A magnitude in its shape stays where it is. -/
theorem Canonical.targetExponent {mantissa : Nat} {exponent : Int}
    (canonical : Canonical mantissa exponent) :
    max (totalExponent mantissa exponent - 53) (-1074) = exponent := by
  have bounded : mantissa.log2 < 53 :=
    (Nat.log2_lt canonical.positive.ne').mpr canonical.bounded
  have least := canonical.least
  unfold totalExponent
  rcases canonical.full with full | isLeast
  · have := (Nat.le_log2 canonical.positive.ne').mpr full
    omega
  · omega

section

variable {mantissa nearest : Nat} {exponent place : Int} {value : ℚ}

/-- Numbers that round to a value are moved to its exponent, but for those that lie below all values
with this exponent. -/
theorem RoundsTo.targetExponent (canonical : Canonical nearest place)
    (rounds : RoundsTo nearest place (value / 2 ^ place))
    (lower : (mantissa : ℚ) * 2 ^ exponent ≤ value)
    (upper : value < (mantissa + 1 : ℚ) * 2 ^ exponent)
    (fine : exponent ≤ max (totalExponent mantissa exponent - 53) (-1074)) :
    max (totalExponent mantissa exponent - 53) (-1074) = place ∨
      NarrowBelow nearest place ∧ value / 2 ^ place < 2 ^ 52 ∧
        max (totalExponent mantissa exponent - 53) (-1074) = place - 1 := by
  have scale : (0 : ℚ) < 2 ^ place := by positivity
  have bounded : (nearest : ℚ) + 1 ≤ 2 ^ 53 := by exact_mod_cast canonical.bounded
  have least := canonical.least
  -- a mantissa of zero is at the least exponent already
  have tiny : mantissa = 0 → exponent ≤ -1074 ∧ totalExponent mantissa exponent ≤ exponent + 1 := by
    rintro rfl
    simp only [totalExponent, Nat.log2_zero] at fine ⊢
    omega
  have above : totalExponent mantissa exponent ≤ 53 + place := by
    by_cases zero : mantissa = 0
    · have := tiny zero
      omega
    · refine totalExponent_le zero lower ?_
      rw [zpow_add₀ two_ne_zero, ← div_lt_iff₀ scale]
      exact rounds.upper.trans_lt (by norm_num at bounded ⊢; linarith)
  by_cases below : NarrowBelow nearest place ∧ value / 2 ^ place < 2 ^ 52
  · obtain ⟨narrow, less⟩ := below
    have roomy := narrow.2
    have least := rounds.lower
    rw [if_pos narrow, narrow.1] at least
    have atLeast : 51 + place < totalExponent mantissa exponent := by
      refine lt_totalExponent upper ?_
      rw [zpow_add₀ two_ne_zero, ← le_div_iff₀ scale]
      exact le_trans (by norm_num) least
    have atMost : totalExponent mantissa exponent ≤ 52 + place := by
      by_cases zero : mantissa = 0
      · have := tiny zero
        omega
      · refine totalExponent_le zero lower ?_
        rwa [zpow_add₀ two_ne_zero, ← div_lt_iff₀ scale]
    exact .inr ⟨narrow, less, by omega⟩
  · refine .inl ?_
    rcases canonical.full with full | isLeast
    · rcases eq_or_lt_of_le least with isLeast | roomy
      · omega
      · have fullBinade : (2 : ℚ) ^ 52 ≤ value / 2 ^ place := by
          rcases eq_or_lt_of_le full with isFull | more
          · exact not_lt.mp fun less => below ⟨⟨isFull.symm, roomy⟩, less⟩
          · have notNarrow : ¬ NarrowBelow nearest place := fun narrow => more.ne' narrow.1
            have least := rounds.lower
            rw [if_neg notNarrow] at least
            have more : (2 : ℚ) ^ 52 + 1 ≤ nearest := by exact_mod_cast more
            linarith
        have atLeast : 52 + place < totalExponent mantissa exponent := by
          refine lt_totalExponent upper ?_
          rwa [zpow_add₀ two_ne_zero, ← le_div_iff₀ scale]
        omega
    · omega

end

theorem shiftToTargetExponent_eq {mantissa : Nat} {exponent target : Int} {accuracy : Accuracy}
    (isTarget : max (totalExponent mantissa exponent - 53) (-1074) = target)
    (fine : exponent ≤ target) :
    shiftToTargetExponent .binary64 mantissa exponent accuracy =
      (ExtendedMantissa.ofMantissaAndAccuracy mantissa accuracy >>> (target - exponent).toNat,
        target) := by
  simp only [shiftToTargetExponent, shiftToExponent, targetExponent_eq, isTarget]
  congr 1
  omega

/-- What is left of a mantissa at a greater exponent. -/
theorem Represents.moved {mantissa : Nat} {exponent target : Int} {accuracy : Accuracy} {value : ℚ}
    (represents : Represents (.ofMantissaAndAccuracy mantissa accuracy) (value / 2 ^ exponent))
    (fine : exponent ≤ target) :
    Represents
      (ExtendedMantissa.ofMantissaAndAccuracy mantissa accuracy >>> (target - exponent).toNat)
      (value / 2 ^ target) := by
  have moved := represents.shiftRight (target - exponent).toNat
  have scale : (2 : ℚ) ^ exponent * 2 ^ (target - exponent).toNat = 2 ^ target := by
    rw [← zpow_natCast, ← zpow_add₀ two_ne_zero]
    congr 1
    omega
  rwa [div_div, scale] at moved

/-- A number that rounds to a value is rounded to it, provided that the mantissa has enough bits. -/
theorem roundWithAccuracy_eq (sign : Sign) {mantissa nearest : Nat} {exponent place : Int}
    {accuracy : Accuracy} {value : ℚ} (canonical : Canonical nearest place)
    (represents : Represents (.ofMantissaAndAccuracy mantissa accuracy) (value / 2 ^ exponent))
    (rounds : RoundsTo nearest place (value / 2 ^ place))
    (fine : exponent ≤ max (totalExponent mantissa exponent - 53) (-1074)) :
    roundWithAccuracy .binary64 sign mantissa exponent accuracy =
      .finite sign nearest place canonical.positive := by
  have unit : (0 : ℚ) < 2 ^ exponent := by positivity
  have isMantissa : (ExtendedMantissa.ofMantissaAndAccuracy mantissa accuracy).mantissa = mantissa := by
    cases accuracy with
    | exact => rfl
    | inexact order => cases order <;> rfl
  have bounds := represents.bounds
  rw [isMantissa, le_div_iff₀ unit, div_lt_iff₀ unit] at bounds
  rcases rounds.targetExponent canonical bounds.1 bounds.2 fine with same | ⟨narrow, less, finer⟩
  · rw [same] at fine
    have rounded : ExtendedMantissa.roundedMantissa _ = nearest :=
      (represents.moved fine).roundedMantissa_eq
      (le_trans (by split_ifs <;> linarith) rounds.lower) rounds.upper
      (by
        rintro (low | high)
        · refine rounds.tie (.inl ?_)
          have least := rounds.lower
          split_ifs at least ⊢ with narrow
          · linarith
          · exact low
        · exact rounds.tie (.inr high))
    have stays : shiftToTargetExponent .binary64 nearest place .exact = _ :=
      shiftToTargetExponent_eq canonical.targetExponent le_rfl
    have noBits : (place - place).toNat = 0 := by omega
    simp only [roundWithAccuracy, shiftToTargetExponent_eq same fine, rounded, stays, noBits]
    exact dif_neg canonical.positive.ne'
  · -- the number is less than the power of two that it is rounded to, so a bit is dropped afterwards
    rw [finer] at fine
    have double : value / 2 ^ (place - 1) = 2 * (value / 2 ^ place) := by
      rw [zpow_sub₀ two_ne_zero, zpow_one]
      field_simp
    have least := rounds.lower
    rw [if_pos narrow, narrow.1] at least
    have rounded : ExtendedMantissa.roundedMantissa _ = 2 ^ 53 :=
      (represents.moved fine).roundedMantissa_eq
      (by rw [double]; push_cast at least ⊢; linarith) (by rw [double]; push_cast; linarith)
      (fun _ => rfl)
    have carry : max (totalExponent (2 ^ 53) (place - 1) - 53) (-1074) = place := by
      have := narrow.2
      simp only [totalExponent, Nat.log2_two_pow]
      omega
    have drops : shiftToTargetExponent .binary64 (2 ^ 53) (place - 1) .exact = _ :=
      shiftToTargetExponent_eq carry (by omega)
    have oneBit : (place - (place - 1)).toNat = 1 := by omega
    simp only [roundWithAccuracy, shiftToTargetExponent_eq finer fine, rounded, drops, oneBit]
    obtain ⟨rfl, -⟩ := narrow
    exact dif_neg canonical.positive.ne'

end StepCode.Decimal
