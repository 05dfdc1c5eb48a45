import StepCode.Decimal.Reading
import StepCode.Proofs.Decimal.Packing

/-!
# The number nearest to a decimal

The product of a number and a power of ten, or their quotient, is rounded once.  So a decimal that
rounds to a value is read as this value.
-/

namespace StepCode.Decimal

open Float.Model (UnpackedFloat Format totalExponent)
open Float.Model.UnpackedFloat

/-! ## Products and quotients -/

section

variable {nearest : Nat} {place : Int} {first second : Nat} {i j : Int}

theorem mul_eq (canonical : Canonical nearest place) (positive : 0 < first) (other : 0 < second)
    (full : 2 ^ 52 ≤ first * second)
    (rounds : RoundsTo nearest place ((first * 2 ^ i * (second * 2 ^ j) : ℚ) / 2 ^ place)) :
    mul .binary64 (.finite .positive first i positive) (.finite .positive second j other) =
      .finite .positive nearest place canonical.positive := by
  have nonzero : first * second ≠ 0 := (Nat.mul_pos positive other).ne'
  refine roundWithAccuracy_eq .positive canonical ?_ rounds ?_
  · have scaled : (first * 2 ^ i * (second * 2 ^ j) : ℚ) / 2 ^ (i + j) = (first * second : Nat) := by
      rw [zpow_add₀ two_ne_zero]
      push_cast
      field_simp
    rw [scaled]
    exact .exact _
  · have := (Nat.le_log2 nonzero).mpr full
    unfold totalExponent
    omega

/-- The remainder of a division says what lies behind the quotient. -/
theorem represents_div (num : Nat) {den : Nat} (positive : 0 < den) :
    Represents (.ofMantissaAndAccuracy (num / den) (accuracyOfFraction (num % den) den))
      ((num : ℚ) / den) := by
  have below : (0 : ℚ) < den := by exact_mod_cast positive
  have less : ((num % den : Nat) : ℚ) < den := by exact_mod_cast Nat.mod_lt num positive
  have split : (num : ℚ) / den = (num / den : Nat) + ((num % den : Nat) : ℚ) / den := by
    rw [eq_comm, ← sub_eq_zero]
    have whole : ((num / den : Nat) : ℚ) * den + (num % den : Nat) = num := by
      exact_mod_cast Nat.div_add_mod' num den
    field_simp
    linarith
  rw [split]
  generalize num / den = quotient
  generalize num % den = rest at less ⊢
  unfold accuracyOfFraction
  split
  next zero =>
    subst zero
    simp [ExtendedMantissa.ofMantissaAndAccuracy, Represents]
  next nonzero =>
    have some : (0 : ℚ) < rest := by exact_mod_cast Nat.pos_of_ne_zero nonzero
    have fraction : (0 : ℚ) < rest / den := div_pos some below
    cases order : compare (2 * rest) den with
    | lt =>
        have half : (rest : ℚ) / den < 1 / 2 := by
          have := Nat.compare_eq_lt.mp order
          rw [div_lt_div_iff₀ below two_pos]
          exact_mod_cast (by omega)
        have behind : (quotient : ℚ) < quotient + rest / den ∧
            (quotient : ℚ) + rest / den < quotient + 1 / 2 := by
          constructor <;> linarith
        exact behind
    | eq =>
        have half : (rest : ℚ) / den = 1 / 2 := by
          have := Nat.compare_eq_eq.mp order
          rw [div_eq_div_iff below.ne' two_ne_zero]
          exact_mod_cast (by omega)
        exact congrArg _ half
    | gt =>
        have half : 1 / 2 < (rest : ℚ) / den := by
          have := Nat.compare_eq_gt.mp order
          rw [div_lt_div_iff₀ two_pos below]
          exact_mod_cast (by omega)
        have whole : (rest : ℚ) / den < 1 := (div_lt_one below).mpr less
        have behind : (quotient : ℚ) + 1 / 2 < quotient + rest / den ∧
            (quotient : ℚ) + rest / den < quotient + 1 := by
          constructor <;> linarith
        exact behind

/-- The dividend is shifted until the quotient has enough bits. -/
theorem div_eq (canonical : Canonical nearest place) (positive : 0 < first) (other : 0 < second)
    (rounds : RoundsTo nearest place ((first * 2 ^ i / (second * 2 ^ j) : ℚ) / 2 ^ place)) :
    div .binary64 (.finite .positive first i positive) (.finite .positive second j other) =
      .finite .positive nearest place canonical.positive := by
  obtain ⟨target, isTarget⟩ : ∃ target, target = min (i - j)
      (max (totalExponent first i - totalExponent second j - 53) (-1074)) := ⟨_, rfl⟩
  have quotient : divCore .binary64 first i second j =
      (first * 2 ^ (i - j - target).toNat / second, target,
        accuracyOfFraction (first * 2 ^ (i - j - target).toNat % second) second) := by
    simp only [divCore, targetExponent_eq, ← isTarget, Nat.shiftLeft_eq]
  simp only [div, quotient]
  refine roundWithAccuracy_eq .positive canonical ?_ rounds ?_
  · have scaled : (first * 2 ^ i / (second * 2 ^ j) : ℚ) / 2 ^ target =
        (first * 2 ^ (i - j - target).toNat : Nat) / (second : ℚ) := by
      have shift : ((2 : ℚ) ^ (i - j - target).toNat) = 2 ^ (i - j - target) := by
        rw [← zpow_natCast]
        congr 1
        omega
      push_cast
      rw [shift, zpow_sub₀ two_ne_zero, zpow_sub₀ two_ne_zero]
      field_simp
    rw [scaled]
    exact represents_div _ other
  · have enough : -1074 < target →
        2 ^ 52 ≤ first * 2 ^ (i - j - target).toNat / second := by
      intro roomy
      have shift : second.log2 + 53 ≤ first.log2 + (i - j - target).toNat := by
        unfold totalExponent at isTarget
        omega
      rw [Nat.le_div_iff_mul_le other]
      calc 2 ^ 52 * second ≤ 2 ^ 52 * 2 ^ (second.log2 + 1) :=
            Nat.mul_le_mul_left _ Nat.lt_log2_self.le
        _ = 2 ^ (second.log2 + 53) := by rw [← Nat.pow_add, Nat.add_comm]
        _ ≤ 2 ^ (first.log2 + (i - j - target).toNat) := Nat.pow_le_pow_right two_pos shift
        _ = 2 ^ first.log2 * 2 ^ (i - j - target).toNat := Nat.pow_add ..
        _ ≤ first * 2 ^ (i - j - target).toNat :=
            Nat.mul_le_mul_right _ (Nat.log2_self_le positive.ne')
    by_cases roomy : -1074 < target
    · have := (Nat.le_log2 (by have := enough roomy; omega)).mpr (enough roomy)
      unfold totalExponent
      omega
    · omega

end

/-! ## Decimals -/

section

variable {nearest digits : Nat} {place exponent : Int}

theorem ofScientific_eq (canonical : Canonical nearest place) (nonzero : digits ≠ 0)
    (notLarge : exponent ≤ 2 ^ 11) (notSmall : -(2 ^ 11 + (digits.log2 : Int)) ≤ exponent)
    (rounds : RoundsTo nearest place ((digits * 10 ^ exponent : ℚ) / 2 ^ place)) :
    UnpackedFloat.ofScientific .binary64 digits exponent =
      .finite .positive nearest place canonical.positive := by
  unfold UnpackedFloat.ofScientific
  rw [dif_neg nonzero, if_neg (by simpa using notLarge), if_neg (by simpa using notSmall)]
  split
  next nonneg =>
    refine mul_eq canonical _ _ ?_ ?_
    · calc 2 ^ 52 ≤ 1 * 2 ^ 53 * 1 := by decide
        _ ≤ digits * 2 ^ 53 * 10 ^ exponent.toNat := by
            gcongr
            · omega
            · exact Nat.one_le_pow _ _ (by decide)
        _ = _ := by rw [mantissaBits_eq, Nat.shiftLeft_eq]
    · have value : (((digits <<< Format.binary64.mantissaBits : Nat) : ℚ) *
          2 ^ (-(Format.binary64.mantissaBits : Int)) * ((10 ^ exponent.toNat : Nat) * 2 ^ (0 : Int))) =
          digits * 10 ^ exponent := by
        obtain ⟨power, rfl⟩ := Int.eq_ofNat_of_zero_le nonneg
        rw [mantissaBits_eq, Nat.shiftLeft_eq, zpow_neg, zpow_natCast, Int.toNat_natCast, zpow_natCast]
        push_cast
        field_simp
        norm_num
      rwa [value]
  next negative =>
    refine div_eq canonical _ _ ?_
    have value : ((digits : ℚ) * 2 ^ (0 : Int) / ((10 ^ (-exponent).toNat : Nat) * 2 ^ (0 : Int))) =
        digits * 10 ^ exponent := by
      obtain ⟨power, isPower⟩ := Int.eq_ofNat_of_zero_le (show 0 ≤ -exponent by omega)
      obtain rfl : exponent = -(power : Int) := by omega
      rw [neg_neg, Int.toNat_natCast, zpow_neg, zpow_natCast]
      push_cast
      field_simp
    rwa [value]

/-- The unpacked number is a power of ten. -/
def isPower (exponent : Nat) : UnpackedFloat → Bool
  | .finite .positive mantissa place _ =>
      mantissa * 2 ^ place.toNat == 10 ^ exponent * 2 ^ (-place).toNat
  | _ => false

theorem isPower_power (exponent : Fin 23) :
    isPower exponent Float.exactlyRepresentablePowersOfTen[exponent].toModel.unpack = true := by
  revert exponent
  decide

theorem exists_of_isPower {exponent : Nat} {unpacked : UnpackedFloat}
    (power : isPower exponent unpacked = true) :
    ∃ mantissa place positive, unpacked = .finite .positive mantissa place positive ∧
      (mantissa * 2 ^ place : ℚ) = 10 ^ exponent := by
  unfold isPower at power
  split at power
  next mantissa place positive =>
    refine ⟨mantissa, place, positive, rfl, ?_⟩
    have same : (mantissa * 2 ^ place.toNat : ℚ) = 10 ^ exponent * 2 ^ (-place).toNat := by
      exact_mod_cast beq_iff_eq.mp power
    have parts : place = (place.toNat : Int) - ((-place).toNat : Int) := by omega
    rw [parts, zpow_sub₀ two_ne_zero, zpow_natCast, zpow_natCast, ← mul_div_assoc, div_eq_iff]
    · exact same
    · positivity
  next => cases power

/-- A natural number with few enough bits is a value of the format. -/
theorem unpack_toFloat (nonzero : digits ≠ 0) (small : digits < 2 ^ 53) :
    ∃ mantissa place positive, digits.toUInt64.toFloat.toModel.unpack =
      .finite .positive mantissa place positive ∧ 2 ^ 52 ≤ mantissa ∧
      (mantissa * 2 ^ place : ℚ) = digits := by
  have few : digits.log2 < 53 := (Nat.log2_lt nonzero).mpr small
  obtain ⟨shift, isShift⟩ : ∃ shift, shift = 52 - digits.log2 := ⟨_, rfl⟩
  have bits : digits.log2 + shift = 52 := by omega
  have lower : 2 ^ 52 ≤ digits * 2 ^ shift := by
    calc 2 ^ 52 = 2 ^ digits.log2 * 2 ^ shift := by rw [← Nat.pow_add, bits]
      _ ≤ digits * 2 ^ shift := Nat.mul_le_mul_right _ (Nat.log2_self_le nonzero)
  have upper : digits * 2 ^ shift < 2 ^ 53 := by
    calc digits * 2 ^ shift < 2 ^ (digits.log2 + 1) * 2 ^ shift :=
          Nat.mul_lt_mul_of_pos_right Nat.lt_log2_self (Nat.two_pow_pos shift)
      _ = 2 ^ 53 := by rw [← Nat.pow_add]; congr 1; omega
  have canonical : Canonical (digits * 2 ^ shift) (-(shift : Int)) :=
    ⟨Nat.lt_of_lt_of_le (by decide) lower, upper, by omega, .inl lower⟩
  have isDigits : digits.toUInt64.toNat = digits := by
    simp
    omega
  have isRounded : UnpackedFloat.ofNat .binary64 digits =
      .finite .positive (digits * 2 ^ shift) (-(shift : Int)) canonical.positive := by
    have positive : compare (digits : Int) 0 = .gt := by
      rw [Int.compare_eq_gt]
      omega
    have target : max (totalExponent digits 0 - 53) (-1074) = -(shift : Int) := by
      unfold totalExponent
      omega
    have amount : (0 - -(shift : Int)).toNat = shift := by omega
    simp only [UnpackedFloat.ofNat, ofInt, UnpackedFloat.normalize, positive, UnpackedFloat.round,
      targetExponent_eq,
      Int.toNat_natCast, target, decreaseExponent, amount, Nat.shiftLeft_eq]
    have exact : (0 : Int) - shift = -(shift : Int) := by omega
    rw [exact]
    have whole : ((digits * 2 ^ shift : Nat) : ℚ) * 2 ^ (-(shift : Int)) / 2 ^ (-(shift : Int)) =
        (digits * 2 ^ shift : Nat) := mul_div_cancel_right₀ _ (by positivity)
    have rounds : RoundsTo (digits * 2 ^ shift) (-(shift : Int))
        (((digits * 2 ^ shift : Nat) : ℚ) * 2 ^ (-(shift : Int)) / 2 ^ (-(shift : Int))) := by
      rw [whole]
      exact roundsTo_self
    refine roundWithAccuracy_eq .positive canonical ?_ rounds canonical.targetExponent.ge
    rw [whole]
    exact .exact _
  refine ⟨_, -(shift : Int), canonical.positive, ?_, lower, ?_⟩
  · show unpack .binary64 (pack .binary64 (UnpackedFloat.ofNat .binary64 digits.toUInt64.toNat)) = _
    rw [isDigits, isRounded]
    exact unpack_pack .positive canonical (by omega)
  · rw [zpow_neg, zpow_natCast]
    push_cast
    field_simp

theorem scaled_toFloat (canonical : Canonical nearest place) (nonzero : digits ≠ 0)
    (small : digits < 2 ^ 53) (power : Fin 23) :
    (RoundsTo nearest place ((digits * 10 ^ power.val : ℚ) / 2 ^ place) →
      digits.toUInt64.toFloat * Float.exactlyRepresentablePowersOfTen[power] =
        .ofModel (.pack (.finite .positive nearest place canonical.positive))) ∧
    (RoundsTo nearest place ((digits / 10 ^ power.val : ℚ) / 2 ^ place) →
      digits.toUInt64.toFloat / Float.exactlyRepresentablePowersOfTen[power] =
        .ofModel (.pack (.finite .positive nearest place canonical.positive))) := by
  obtain ⟨mantissa, i, positive, isDigits, full, isNumber⟩ := unpack_toFloat nonzero small
  obtain ⟨ten, j, other, isTen, isPower⟩ := exists_of_isPower (isPower_power power)
  constructor <;> intro rounds <;> rw [← isNumber, ← isPower] at rounds
  · have product := mul_eq canonical positive other (full.trans (Nat.le_mul_of_pos_right _ other)) rounds
    rw [← isDigits, ← isTen] at product
    exact congrArg (fun unpacked => Float.ofModel (.pack unpacked)) product
  · have quotient := div_eq canonical positive other rounds
    rw [← isDigits, ← isTen] at quotient
    exact congrArg (fun unpacked => Float.ofModel (.pack unpacked)) quotient

/-- A decimal that rounds to a value is read as the value, whether or not its digits and its power of
ten are themselves values of the format. -/
theorem float_ofScientific_eq (canonical : Canonical nearest place) (nonzero : digits ≠ 0)
    (notLarge : exponent ≤ 2 ^ 11) (notSmall : -(2 ^ 11 + (digits.log2 : Int)) ≤ exponent)
    (rounds : RoundsTo nearest place ((digits * 10 ^ exponent : ℚ) / 2 ^ place)) :
    Float.ofScientific digits (exponent < 0) exponent.natAbs =
      .ofModel (.pack (.finite .positive nearest place canonical.positive)) := by
  have slow := congrArg (fun unpacked => Float.ofModel (.pack unpacked))
    (ofScientific_eq canonical nonzero notLarge notSmall rounds)
  unfold Float.ofScientific
  match exponent, rounds, slow with
  | .ofNat power, rounds, slow =>
    split
    next fast =>
      rw [Int.ofNat_eq_natCast, zpow_natCast] at rounds
      exact (scaled_toFloat canonical nonzero fast.1 ⟨power, Nat.lt_succ_of_le fast.2⟩).1 rounds
    next => exact slow
  | .negSucc power, rounds, slow =>
    have negative : decide (Int.negSucc power < 0) = true :=
      decide_eq_true (Int.negSucc_lt_zero power)
    simp only [negative, if_true]
    split
    next fast =>
      rw [zpow_negSucc, ← div_eq_mul_inv] at rounds
      exact (scaled_toFloat canonical nonzero fast.1 ⟨power + 1, Nat.lt_succ_of_le fast.2⟩).2 rounds
    next => exact slow

end

/-! ## Exponents out of range -/

/-- A ratio that is nearly the logarithm of two gives nearly the size of a power of two. -/
theorem size_bounds {num den : Nat} (positive : 0 < den) (lower : 2 ^ den ≤ 10 ^ num)
    (upper : 10 ^ num ≤ 2 * 2 ^ den) (bits : Nat) :
    (bits ≤ den → 10 ^ (bits * num / den) ≤ 2 * 2 ^ bits) ∧
      2 ^ bits ≤ 10 ^ (bits * num / den + 1) := by
  constructor
  · intro few
    refine (Nat.pow_le_pow_iff_left positive.ne').mp ?_
    calc (10 ^ (bits * num / den)) ^ den
        = 10 ^ (bits * num / den * den) := (Nat.pow_mul ..).symm
      _ ≤ 10 ^ (num * bits) := by
          refine Nat.pow_le_pow_right (by decide) ?_
          rw [Nat.mul_comm num]
          exact Nat.div_mul_le_self ..
      _ = (10 ^ num) ^ bits := Nat.pow_mul ..
      _ ≤ (2 * 2 ^ den) ^ bits := Nat.pow_le_pow_left upper bits
      _ = 2 ^ bits * (2 ^ bits) ^ den := by rw [Nat.mul_pow, ← Nat.pow_mul, ← Nat.pow_mul, Nat.mul_comm den]
      _ ≤ 2 ^ den * (2 ^ bits) ^ den := Nat.mul_le_mul_right _ (Nat.pow_le_pow_right two_pos few)
      _ = (2 * 2 ^ bits) ^ den := (Nat.mul_pow ..).symm
  · refine (Nat.pow_le_pow_iff_left positive.ne').mp ?_
    calc (2 ^ bits) ^ den = (2 ^ den) ^ bits := Nat.pow_right_comm ..
      _ ≤ (10 ^ num) ^ bits := Nat.pow_le_pow_left lower bits
      _ = 10 ^ (bits * num) := by rw [← Nat.pow_mul, Nat.mul_comm]
      _ ≤ 10 ^ ((bits * num / den + 1) * den) := by
          refine Nat.pow_le_pow_right (by decide) ?_
          rw [Nat.succ_mul]
          exact (Nat.lt_div_mul_add positive).le
      _ = (10 ^ (bits * num / den + 1)) ^ den := Nat.pow_mul ..

theorem powers_close : 2 ^ 100000 ≤ 10 ^ 30103 ∧ 10 ^ 30103 ≤ 2 * 2 ^ 100000 := by
  decide +kernel

section

variable {nearest digits : Nat} {place exponent : Int}

/-- Numbers that round to a value of the format are in range. -/
theorem RoundsTo.range (canonical : Canonical nearest place) (small : place ≤ 971) {value : ℚ}
    (rounds : RoundsTo nearest place (value / 2 ^ place)) :
    (2 : ℚ) ^ (-1075 : Int) ≤ value ∧ value < 2 ^ (1024 : Int) := by
  have unit : (0 : ℚ) < 2 ^ place := by positivity
  have some : (1 : ℚ) ≤ nearest := by exact_mod_cast canonical.positive
  have bounded : (nearest : ℚ) + 1 ≤ 2 ^ 53 := by exact_mod_cast canonical.bounded
  constructor
  · have half : (1 : ℚ) / 2 ≤ value / 2 ^ place := by
      refine le_trans ?_ rounds.lower
      split <;> linarith
    calc (2 : ℚ) ^ (-1075 : Int) = 1 / 2 * 2 ^ (-1074 : Int) := by
          rw [one_div, ← zpow_neg_one, ← zpow_add₀ two_ne_zero]
          rfl
      _ ≤ 1 / 2 * 2 ^ place := by
          gcongr
          · norm_num
          · exact canonical.least
      _ ≤ value := (le_div_iff₀ unit).mp half
  · have less : value / 2 ^ place < 2 ^ 53 := by
      refine lt_of_le_of_lt rounds.upper ?_
      linarith
    calc value < 2 ^ 53 * 2 ^ place := (div_lt_iff₀ unit).mp less
      _ ≤ 2 ^ 53 * 2 ^ (971 : Int) := by
          gcongr
          norm_num
      _ = 2 ^ (1024 : Int) := by
          rw [← zpow_natCast, ← zpow_add₀ two_ne_zero]
          rfl

/-- The number nearest to a decimal that rounds to a value is the value; its exponent is in range. -/
theorem nearest_eq (canonical : Canonical nearest place) (small : place ≤ 971)
    (nonzero : digits ≠ 0) (few : digits.log2 ≤ 100000)
    (rounds : RoundsTo nearest place ((digits * 10 ^ exponent : ℚ) / 2 ^ place)) :
    Decimal.nearest digits exponent =
      .ofModel (.pack (.finite .positive nearest place canonical.positive)) := by
  obtain ⟨lower, upper⟩ := rounds.range canonical small
  obtain ⟨size, isSize⟩ : ∃ size, size = digits.log2 * 30103 / 100000 := ⟨_, rfl⟩
  have bounds := size_bounds (by decide) powers_close.1 powers_close.2 digits.log2
  rw [← isSize] at bounds
  have isInt : (digits.log2 : Int) * 30103 / 100000 = size := by
    rw [isSize]
    norm_cast
  have scale : (0 : ℚ) < 10 ^ exponent := by positivity
  have notLarge : (exponent + size : Int) < 309 := by
    refine (zpow_lt_zpow_iff_right₀ (show (1 : ℚ) < 10 by norm_num)).mp ?_
    have atMost : (10 ^ size : ℚ) ≤ 2 * digits := by
      exact_mod_cast (bounds.1 few).trans (Nat.mul_le_mul_left 2 (Nat.log2_self_le nonzero))
    calc (10 : ℚ) ^ (exponent + size : Int) = 10 ^ exponent * 10 ^ size := by
          rw [zpow_add₀ (by norm_num), zpow_natCast]
      _ ≤ 10 ^ exponent * (2 * digits) := by gcongr
      _ = 2 * (digits * 10 ^ exponent) := by ring
      _ < 2 * 2 ^ (1024 : Int) := by gcongr
      _ ≤ 10 ^ (309 : Int) := by exact_mod_cast (by decide +kernel : 2 * 2 ^ 1024 ≤ 10 ^ 309)
  have notSmall : -326 < (exponent + size + 1 : Int) := by
    refine (zpow_lt_zpow_iff_right₀ (show (1 : ℚ) < 10 by norm_num)).mp ?_
    have atLeast : (digits : ℚ) ≤ 2 * 10 ^ (size + 1) := by
      have doubled : digits ≤ 2 * 2 ^ digits.log2 := by
        rw [Nat.mul_comm, ← Nat.pow_succ]
        exact Nat.lt_log2_self.le
      exact_mod_cast doubled.trans (Nat.mul_le_mul_left 2 bounds.2)
    have tiny : 2 * (10 : ℚ) ^ (-326 : Int) < 2 ^ (-1075 : Int) := by
      rw [zpow_neg, zpow_neg, ← div_eq_mul_inv, ← one_div, div_lt_div_iff₀ (by positivity) (by positivity)]
      exact_mod_cast (by decide +kernel : 2 * 2 ^ 1075 < 1 * 10 ^ 326)
    have split : (10 : ℚ) ^ (exponent + size + 1 : Int) = 10 ^ (size + 1) * 10 ^ exponent := by
      rw [add_assoc, zpow_add₀ (by norm_num), mul_comm]
      norm_cast
    have : 2 * (10 : ℚ) ^ (-326 : Int) < 2 * 10 ^ (exponent + size + 1 : Int) := by
      calc 2 * (10 : ℚ) ^ (-326 : Int) < 2 ^ (-1075 : Int) := tiny
        _ ≤ digits * 10 ^ exponent := lower
        _ ≤ 2 * 10 ^ (size + 1) * 10 ^ exponent := by gcongr
        _ = 2 * 10 ^ (exponent + size + 1 : Int) := by rw [split, mul_assoc]
    linarith
  unfold Decimal.nearest
  simp only [isInt]
  rw [if_neg nonzero, if_neg (by unfold exponentLimit; omega), if_neg (by unfold exponentLimit; omega)]
  exact float_ofScientific_eq canonical nonzero (by omega) (by omega) rounds

end

end StepCode.Decimal
