import StepCode.Proofs.Decimal.Scientific
import StepCode.Proofs.Decimal.Shortest
import StepCode.Proofs.Form.Writing

/-!
# Numbers are read back

The decimal text of every finite number is read as that number.
-/

namespace StepCode

open Float.Model.UnpackedFloat (Sign)

namespace Decimal

/-! ## Positional notation -/

theorem digitsValue_eq (digits : List Char) : digitsValue digits = Nat.ofDigitChars 10 digits 0 := by
  rw [Nat.ofDigitChars_eq_foldl]
  rfl

theorem digitsValue_digitChars (n : Nat) : digitsValue (digitChars n) = n := by
  rw [digitsValue_eq, digitChars, Nat.ofDigitChars_toDigits (by decide) (by decide)]

theorem digitsValue_zeros_append (digits : List Char) (count : Nat) :
    digitsValue ('0' :: (zeros count ++ digits)) = digitsValue digits := by
  rw [← List.cons_append, zeros, ← List.replicate_succ, digitsValue_eq, digitsValue_eq,
    Nat.ofDigitChars_append, Nat.ofDigitChars_replicate_zero, Nat.mul_zero]

theorem digitsValue_append_zeros (digits : List Char) (count : Nat) :
    digitsValue (digits ++ zeros count) = digitsValue digits * 10 ^ count := by
  rw [digitsValue_eq, digitsValue_eq, Nat.ofDigitChars_append, zeros,
    Nat.ofDigitChars_replicate_zero, Nat.mul_comm]

theorem isDigit_of_mem_zeros {count : Nat} {c : Char} (mem : c ∈ zeros count) : c.isDigit = true := by
  obtain rfl := List.eq_of_mem_replicate mem
  rfl

theorem readMagnitude_digits {digits : List Char} (nonempty : digits ≠ [])
    (all : ∀ c ∈ digits, c.isDigit = true) :
    readMagnitude digits = some (digitsValue digits, 0) := by
  have whole : digits.takeWhile Char.isDigit = digits := List.takeWhile_eq_self_iff.mpr all
  have nothing : digits.dropWhile Char.isDigit = [] := List.dropWhile_eq_nil_iff.mpr all
  simp [readMagnitude, whole, nothing, nonempty, readExponent]

theorem readMagnitude_point {whole fraction : List Char} (nonempty : whole ≠ [])
    (all : ∀ c ∈ whole ++ fraction, c.isDigit = true) :
    readMagnitude (whole ++ '.' :: fraction) =
      some (digitsValue (whole ++ fraction), -(fraction.length : Int)) := by
  have front : ∀ c ∈ whole, c.isDigit = true := fun c mem => all c (List.mem_append_left _ mem)
  have back : ∀ c ∈ fraction, c.isDigit = true := fun c mem => all c (List.mem_append_right _ mem)
  have taken : (whole ++ '.' :: fraction).takeWhile Char.isDigit = whole := by
    rw [List.takeWhile_append_of_pos front]
    simp
  have dropped : (whole ++ '.' :: fraction).dropWhile Char.isDigit = '.' :: fraction := by
    rw [List.dropWhile_append_of_pos front]
    simp
  have rest : fraction.takeWhile Char.isDigit = fraction := List.takeWhile_eq_self_iff.mpr back
  have nothing : fraction.dropWhile Char.isDigit = [] := List.dropWhile_eq_nil_iff.mpr back
  simp [readMagnitude, taken, dropped, rest, nothing, nonempty, readExponent]

/-- Positional notation is read as the decimal it was written for. -/
theorem readMagnitude_positional (decimal : Digits) :
    ∃ digits exponent, readMagnitude (positional false decimal) = some (digits, exponent) ∧
      (⟨digits, exponent⟩ : Digits).value = decimal.value ∧ min decimal.exponent 0 ≤ exponent := by
  obtain ⟨digits, exponent⟩ := decimal
  have nonempty : digitChars digits ≠ [] := Nat.toDigits_ne_nil
  have all : ∀ c ∈ digitChars digits, c.isDigit = true := fun c => isDigit_of_mem_digitChars
  unfold positional
  dsimp only
  split
  next nonneg =>
    obtain ⟨count, rfl⟩ := Int.eq_ofNat_of_zero_le nonneg
    refine ⟨_, _, readMagnitude_digits (by simp [nonempty]) ?_, ?_, by omega⟩
    · intro c mem
      rcases List.mem_append.mp (by simpa using mem) with digit | zero
      · exact all c digit
      · exact isDigit_of_mem_zeros zero
    · simp [Digits.value, digitsValue_append_zeros, digitsValue_digitChars]
  next negative =>
    obtain ⟨places, isPlaces⟩ : ∃ places : Nat, places = (-exponent).toNat := ⟨_, rfl⟩
    rw [← isPlaces]
    split
    next inside =>
      have taken : (digitChars digits).take ((digitChars digits).length - places) ≠ [] := by
        have := List.length_pos_of_ne_nil nonempty
        rw [ne_eq, List.take_eq_nil_iff, not_or]
        exact ⟨by omega, nonempty⟩
      refine ⟨_, _, readMagnitude_point taken ?_, ?_, ?_⟩
      · rw [List.take_append_drop]
        exact all
      · rw [List.take_append_drop, digitsValue_digitChars, List.length_drop]
        congr 2
        omega
      · rw [List.length_drop]
        omega
    next outside =>
      have same : '0' :: '.' :: zeros (places - (digitChars digits).length) ++ digitChars digits =
          ['0'] ++ '.' :: (zeros (places - (digitChars digits).length) ++ digitChars digits) := rfl
      rw [same]
      refine ⟨_, _, readMagnitude_point (List.cons_ne_nil _ _) ?_, ?_, ?_⟩
      · intro c mem
        rcases List.mem_append.mp mem with zero | mem
        · obtain rfl := List.mem_singleton.mp zero
          rfl
        · rcases List.mem_append.mp mem with zero | digit
          · exact isDigit_of_mem_zeros zero
          · exact all c digit
      · have value := digitsValue_zeros_append (digitChars digits)
          (places - (digitChars digits).length)
        rw [List.singleton_append, value, digitsValue_digitChars]
        congr 2
        simp only [zeros, List.length_append, List.length_replicate]
        omega
      · simp only [zeros, List.length_append, List.length_replicate]
        omega

/-! ## Signs -/

theorem zero_eq : (0.0 : Float) = .ofModel (.pack (.zero .positive)) := by decide +kernel

theorem neg_zero_eq : -(0.0 : Float) = .ofModel (.pack (.zero .negative)) := by decide +kernel

theorem neg_eq {mantissa : Nat} {exponent : Int} (canonical : Canonical mantissa exponent)
    (small : exponent ≤ 971) :
    -Float.ofModel (.pack (.finite .positive mantissa exponent canonical.positive)) =
      .ofModel (.pack (.finite .negative mantissa exponent canonical.positive)) := by
  have negated := congrArg Float.Model.UnpackedFloat.neg (unpack_pack .positive canonical small)
  exact congrArg (fun unpacked => Float.ofModel (.pack unpacked)) negated

theorem splitSign_of_isDigit {first : Char} {rest : List Char} (digit : first.isDigit = true) :
    splitSign (first :: rest) = (false, first :: rest) := by
  unfold splitSign
  split
  next same =>
    obtain ⟨rfl, -⟩ := List.cons.inj same
    cases digit
  next same =>
    obtain ⟨rfl, -⟩ := List.cons.inj same
    cases digit
  next => rfl

/-- What stands behind the sign is read by itself. -/
theorem read?_signed (negative : Bool) (decimal : Digits) {digits : Nat} {exponent : Int}
    (read : readMagnitude (positional false decimal) = some (digits, exponent)) :
    read? ((if negative then ['-'] else []) ++ positional false decimal) =
      some (if negative then -nearest digits exponent else nearest digits exponent) := by
  cases negative with
  | true => simp [read?, splitSign, read]
  | false =>
      obtain ⟨first, rest, isList, digit, -⟩ := positional_shape decimal
      rw [isList] at read ⊢
      simp [read?, splitSign_of_isDigit digit, read]

/-- A number in range has no more digits than its exponent leaves room for. -/
theorem digits_lt {digits bits places : Nat} {exponent : Int} (range : -(places : Int) ≤ exponent)
    (less : (digits * 10 ^ exponent : ℚ) < 2 ^ (bits : Int)) : digits < 2 ^ bits * 10 ^ places := by
  have scale : (0 : ℚ) < 10 ^ places := by positivity
  have bounded : (digits : ℚ) < 2 ^ bits * 10 ^ places := by
    rw [← div_lt_iff₀ scale]
    calc (digits : ℚ) / 10 ^ places = digits * 10 ^ (-(places : Int)) := by
          rw [zpow_neg, zpow_natCast, div_eq_mul_inv]
      _ ≤ digits * 10 ^ exponent := by
          gcongr
          norm_num
      _ < 2 ^ bits := by rwa [zpow_natCast] at less
  exact_mod_cast bounded

theorem log2_le {digits : Nat} {exponent : Int} (range : -1074 ≤ exponent)
    (less : (digits * 10 ^ exponent : ℚ) < 2 ^ (1024 : Int)) : digits.log2 ≤ 100000 := by
  have fewer : digits < 2 ^ 1024 * 10 ^ 1074 := digits_lt range less
  have bounded : digits < 2 ^ 100000 := lt_of_lt_of_le fewer (by decide +kernel)
  by_cases zero : digits = 0
  · simp [zero]
  · exact ((Nat.log2_lt zero).mpr bounded).le

end Decimal

namespace Number

open Decimal

/-- The decimal text of a finite number is read as the number itself. -/
theorem read?_text {x : Float} (finite : x.isFinite = true) :
    Decimal.read? (text x).toList = some x := by
  rw [toList_text]
  obtain ⟨digits, exponent, read, value, least⟩ :=
    readMagnitude_positional (shortest .upward (Binary.ofBits x.toBits))
  rw [read?_signed (isNegative x) _ read]
  obtain ⟨sign, negative, ⟨zero, isZero⟩ | ⟨mantissa, place, parts⟩⟩ := parts_of_isFinite finite
  · have isDecimal : shortest .upward (Binary.ofBits x.toBits) = ⟨0, 0⟩ := if_pos isZero
    have noDigits : digits = 0 := by
      rw [isDecimal] at read
      cases read
      rfl
    have isNearest : nearest digits exponent = 0.0 := if_pos noDigits
    cases sign with
    | negative => rw [if_pos (negative.mpr rfl), isNearest, neg_zero_eq, zero]
    | positive => rw [if_neg (fun isNeg => nomatch negative.mp isNeg), isNearest, zero_eq, zero]
  · obtain ⟨canonical, small, packed, magnitude, -⟩ := parts
    obtain ⟨rounds, range⟩ := shortest_roundsTo canonical .upward magnitude
    rw [← value] at rounds
    obtain ⟨lower, upper⟩ := rounds.range canonical small
    have nonzero : digits ≠ 0 := by
      rintro rfl
      have positive := lt_of_lt_of_le (by positivity) lower
      simp [Digits.value] at positive
    have inRange : -1074 ≤ exponent := by omega
    have isNearest := nearest_eq canonical small nonzero (log2_le inRange upper) rounds
    cases sign with
    | negative => rw [if_pos (negative.mpr rfl), isNearest, neg_eq canonical small, packed]
    | positive => rw [if_neg (fun isNeg => nomatch negative.mp isNeg), isNearest, packed]

theorem readsBack_of_isFinite {x : Float} (finite : x.isFinite = true) : ReadsBack x := by
  have finite' : x.toModel.unpack.isFinite = true := finite
  suffices x.toModel.unpack.isNaN = false ∧ x.toModel.unpack.isInf = false from
    ⟨this.1, this.2, read?_text finite⟩
  revert finite'
  cases x.toModel.unpack with
  | notANumber | infinity => exact nofun
  | zero | finite => exact fun _ => ⟨rfl, rfl⟩

end Number

end StepCode
