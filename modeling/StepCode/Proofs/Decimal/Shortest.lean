import StepCode.Decimal.Shortest
import StepCode.Proofs.Decimal.Rounding

/-!
# Shortest decimals round back

Every decimal that the search accepts rounds to the value it was sought for, and so does the exact
one that is left when no grid is fine enough.
-/

namespace StepCode.Decimal

/-- The number that a decimal stands for. -/
def Digits.value (decimal : Digits) : ℚ := decimal.digits * 10 ^ decimal.exponent

section

variable (a : Nat) (i : Int) (b : Nat) (j : Int)

theorem exists_scale : ∃ scale : ℚ, 0 < scale ∧
    a * 10 ^ i * scale = (a * Nat.pow 10 i.toNat * Nat.pow 2 (-j).toNat : Nat) ∧
    b * 2 ^ j * scale = (b * Nat.pow 2 j.toNat * Nat.pow 10 (-i).toNat : Nat) := by
  have parts : ∀ (base : ℚ) (n : Int), base ≠ 0 →
      base ^ n * base ^ (-n).toNat = base ^ n.toNat := by
    intro base n nonzero
    rw [← zpow_natCast, ← zpow_natCast, ← zpow_add₀ nonzero]
    congr 1
    omega
  refine ⟨10 ^ (-i).toNat * 2 ^ (-j).toNat, by positivity, ?_, ?_⟩
  · push_cast [Nat.pow_eq]
    rw [← parts 10 i (by norm_num)]
    ring
  · push_cast [Nat.pow_eq]
    rw [← parts 2 j (by norm_num)]
    ring

/-- The comparison is the one of the numbers. -/
theorem compareScaled_eq :
    (compareScaled a i b j = .lt ↔ (a * 10 ^ i : ℚ) < b * 2 ^ j) ∧
      (compareScaled a i b j = .eq ↔ (a * 10 ^ i : ℚ) = b * 2 ^ j) ∧
      (compareScaled a i b j = .gt ↔ (b * 2 ^ j : ℚ) < a * 10 ^ i) := by
  obtain ⟨scale, positive, left, right⟩ := exists_scale a i b j
  unfold compareScaled
  rw [Nat.compare_eq_lt, Nat.compare_eq_eq, Nat.compare_eq_gt]
  refine ⟨?_, ?_, ?_⟩
  · rw [← mul_lt_mul_iff_left₀ positive, left, right, Nat.cast_lt]
  · rw [← mul_left_inj' positive.ne', left, right, Nat.cast_inj]
  · rw [← mul_lt_mul_iff_left₀ positive, left, right, Nat.cast_lt]

end

section

variable {mantissa : Nat} {exponent : Int}

/-- A decimal in the interval of a value rounds to the value. -/
theorem roundsTo_of_roundsFrom (positive : 0 < mantissa) {decimal : Digits}
    (rounds : Binary.roundsFrom ⟨mantissa, exponent, decide (NarrowBelow mantissa exponent)⟩ decimal =
      true) : RoundsTo mantissa exponent (decimal.value / 2 ^ exponent) := by
  have unit : (0 : ℚ) < 2 ^ exponent := by positivity
  have quarter : (2 : ℚ) ^ (exponent - 2) = 2 ^ exponent / 4 := by
    rw [zpow_sub₀ two_ne_zero]
    norm_num
  obtain ⟨low, isLow⟩ : ∃ low : Nat, low = if decide (NarrowBelow mantissa exponent) = true then
      4 * mantissa - 1 else 4 * mantissa - 2 := ⟨_, rfl⟩
  have lowValue : (low * 2 ^ (exponent - 2) : ℚ) =
      (mantissa - if NarrowBelow mantissa exponent then 1 / 4 else 1 / 2) * 2 ^ exponent := by
    rw [quarter, isLow]
    by_cases narrow : NarrowBelow mantissa exponent
    · rw [if_pos (decide_eq_true narrow), if_pos narrow, Nat.cast_sub (by omega)]
      push_cast
      ring
    · rw [if_neg (by simpa using narrow), if_neg narrow, Nat.cast_sub (by omega)]
      push_cast
      ring
  have highValue : ((4 * mantissa + 2 : Nat) * 2 ^ (exponent - 2) : ℚ) =
      (mantissa + 1 / 2) * 2 ^ exponent := by
    rw [quarter]
    push_cast
    ring
  obtain ⟨-, atLow, aboveLow⟩ := compareScaled_eq decimal.digits decimal.exponent low (exponent - 2)
  obtain ⟨belowHigh, atHigh, -⟩ :=
    compareScaled_eq decimal.digits decimal.exponent (4 * mantissa + 2) (exponent - 2)
  rw [lowValue] at atLow aboveLow
  rw [highValue] at belowHigh atHigh
  simp only [Binary.roundsFrom, ← isLow, Bool.and_eq_true, Bool.or_eq_true, beq_iff_eq, atLow, aboveLow,
    belowHigh, atHigh] at rounds
  obtain ⟨lower, upper⟩ := rounds
  refine ⟨?_, ?_, ?_⟩
  · rw [le_div_iff₀ unit]
    exact lower.elim le_of_lt fun tie => tie.2.ge
  · rw [div_le_iff₀ unit]
    exact upper.elim le_of_lt fun tie => tie.2.le
  · rw [div_eq_iff unit.ne', div_eq_iff unit.ne']
    rintro (low | high)
    · exact (lower.resolve_left (fun more => more.ne' low)).1
    · exact (upper.resolve_left (fun less => less.ne high)).1

theorem nearestOnGrid_rounds {tie : Tie} {value : Binary} {grid : Int} {point : Nat}
    (found : nearestOnGrid tie value grid = some point) :
    value.roundsFrom ⟨point, grid⟩ = true := by
  unfold nearestOnGrid at found
  dsimp only at found
  split at found
  next below _ => exact Option.some.inj found ▸ below
  next _ above => exact Option.some.inj found ▸ above
  next => cases found
  next below above =>
    split at found
    · exact Option.some.inj found ▸ below
    · exact Option.some.inj found ▸ above
    · cases tie with
      | upward => exact Option.some.inj found ▸ above
      | toEven =>
          dsimp only at found
          split at found
          · exact Option.some.inj found ▸ below
          · exact Option.some.inj found ▸ above

/-- What the search finds is on one of the grids, and rounds to the value. -/
theorem searchGrids_rounds {tie : Tie} {value : Binary} {top : Int} {tries digits : Nat}
    {decimal : Digits} (found : searchGrids tie value top tries digits = some decimal) :
    value.roundsFrom decimal = true ∧ top - (digits + tries : Int) ≤ decimal.exponent := by
  induction tries generalizing digits with
  | zero => cases found
  | succ tries ih =>
      unfold searchGrids at found
      dsimp only at found
      split at found
      next point isPoint =>
        obtain rfl := Option.some.inj found
        exact ⟨nearestOnGrid_rounds isPoint, by push_cast; omega⟩
      next =>
        obtain ⟨rounds, range⟩ := ih found
        exact ⟨rounds, by push_cast at range ⊢; omega⟩

/-- Zeros that are moved into the exponent do not change the number. -/
theorem stripZeros_value (fuel : Nat) (decimal : Digits) :
    (stripZeros fuel decimal).value = decimal.value ∧
      decimal.exponent ≤ (stripZeros fuel decimal).exponent := by
  induction fuel generalizing decimal with
  | zero => exact ⟨rfl, le_rfl⟩
  | succ fuel ih =>
      unfold stripZeros
      split
      next zero =>
        obtain ⟨same, more⟩ := ih ⟨decimal.digits / 10, decimal.exponent + 1⟩
        refine ⟨same.trans ?_, by dsimp only at more; omega⟩
        have whole : (decimal.digits : ℚ) = (decimal.digits / 10 : Nat) * 10 := by
          exact_mod_cast (Nat.div_mul_cancel (Nat.dvd_of_mod_eq_zero zero.2)).symm
        rw [Digits.value, Digits.value, whole, zpow_add₀ (by norm_num), zpow_one]
        ring
      next => exact ⟨rfl, le_rfl⟩

theorem exact_value (value : Binary) :
    (exact value).value = value.significand * 2 ^ value.exponent := by
  obtain ⟨significand, exponent, narrow⟩ := value
  simp only [exact, Digits.value, Nat.pow_eq]
  rcases le_total 0 exponent with nonneg | nonpos
  · obtain ⟨power, rfl⟩ := Int.eq_ofNat_of_zero_le nonneg
    have noFraction : (-(power : Int)).toNat = 0 := by omega
    simp [noFraction]
  · obtain ⟨power, isPower⟩ := Int.eq_ofNat_of_zero_le (show 0 ≤ -exponent by omega)
    obtain rfl : exponent = -(power : Int) := by omega
    have noWhole : (-(power : Int)).toNat = 0 := by omega
    rw [noWhole, neg_neg, Int.toNat_natCast, min_eq_left nonpos, zpow_neg, zpow_neg, zpow_natCast,
      zpow_natCast]
    have ten : (10 : ℚ) ^ power = 2 ^ power * 5 ^ power := by rw [← mul_pow]; norm_num
    push_cast
    rw [ten]
    field_simp

theorem magnitude_ge (value : Binary) :
    ((value.significand.log2 : Int) + value.exponent) * 30103 / 100000 ≤ magnitude value := by
  unfold magnitude
  dsimp only
  split_ifs <;> omega

/-- The shortest decimal of a value rounds to the value. -/
theorem shortest_roundsTo (canonical : Canonical mantissa exponent) (tie : Tie) {value : Binary}
    (isValue : value = ⟨mantissa, exponent, decide (NarrowBelow mantissa exponent)⟩) :
    RoundsTo mantissa exponent ((shortest tie value).value / 2 ^ exponent) ∧
      -1074 ≤ (shortest tie value).exponent := by
  have isMantissa : value.significand = mantissa := congrArg Binary.significand isValue
  have isExponent : value.exponent = exponent := congrArg Binary.exponent isValue
  have least := canonical.least
  suffices found : ∀ found, found = (searchGrids tie value (magnitude value) 17 1).getD (exact value) →
      RoundsTo mantissa exponent (found.value / 2 ^ exponent) ∧ -1074 ≤ found.exponent by
    obtain ⟨decimal, isDecimal⟩ : ∃ decimal, decimal =
        (searchGrids tie value (magnitude value) 17 1).getD (exact value) := ⟨_, rfl⟩
    obtain ⟨rounds, range⟩ := found decimal isDecimal
    have stripped : shortest tie value = stripZeros (decimal.digits.log2 + 1) decimal := by
      unfold shortest
      rw [if_neg (by rw [isMantissa]; exact canonical.positive.ne'), isDecimal]
    obtain ⟨same, more⟩ := stripZeros_value (decimal.digits.log2 + 1) decimal
    rw [stripped, same]
    exact ⟨rounds, range.trans more⟩
  rintro found rfl
  cases search : searchGrids tie value (magnitude value) 17 1 with
  | some decimal =>
      obtain ⟨rounds, range⟩ := searchGrids_rounds search
      have top := magnitude_ge value
      rw [isExponent] at top
      rw [isValue] at rounds
      exact ⟨roundsTo_of_roundsFrom canonical.positive rounds, by simp only [Option.getD_some]; omega⟩
  | none =>
      have unit : (2 : ℚ) ^ exponent ≠ 0 := by positivity
      rw [Option.getD_none, exact_value, isMantissa, isExponent, mul_div_cancel_right₀ _ unit]
      refine ⟨roundsTo_self, ?_⟩
      rw [exact, isExponent]
      exact le_min least (by decide)

end

end StepCode.Decimal
