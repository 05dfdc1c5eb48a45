import StepCode.Operation.Operator
import StepCode.Proofs.Decimal.Order
import StepCode.Proofs.Decimal.ReadBack
import StepCode.Proofs.Form.Reduction

/-!
# Comparing values

Whether two values are compared by number or by text depends on both of them, but not on their order.
So a comparison turns around with its operands, and a value is equal to itself and to its own text.
-/

namespace StepCode

open Float.Model (UnpackedFloat)

theorem Text.trimChars_eq_self {chars : List Char} (plain : ∀ c ∈ chars, isBlank c = false) :
    trimChars chars = chars := by
  have untouched {chars : List Char} (plain : ∀ c ∈ chars, isBlank c = false) :
      chars.dropWhile isBlank = chars := by
    cases chars with
    | nil => rfl
    | cons c rest => exact List.dropWhile_cons_of_neg (by simp [plain c])
  rw [trimChars, untouched plain, untouched (by simpa using plain), List.reverse_reverse]

namespace Value

variable {x : Float}

/-! ## The text of a number -/

/-- The decimal text of a number consists of characters that numbers may hold, and of no blanks. -/
theorem isNumberChar_of_mem_text {c : Char} (mem : c ∈ (Number.text x).toList) :
    isNumberChar c = true ∧ Text.isBlank c = false := by
  have plain := (Number.text_shape x).2 c mem
  simp only [Token.endsWord, Bool.or_eq_false_iff] at plain
  refine ⟨?_, plain.1.1.1.1⟩
  obtain ⟨-, -, -, -, shape⟩ := Decimal.positional_shape
    (Decimal.shortest .upward (Decimal.Binary.ofBits x.toBits))
  rw [Number.toList_text] at mem
  rcases List.mem_append.mp mem with sign | digit
  · split at sign
    · obtain rfl := List.mem_singleton.mp sign
      rfl
    · simp at sign
  · rcases shape c digit with isDigit | rfl
    · simp [isNumberChar, isDigit]
    · rfl

theorem isEmpty_text (x : Float) : (Number.text x).toList.isEmpty = false := by
  cases chars : (Number.text x).toList with
  | nil =>
      have starts := (Number.text_shape x).1
      simp [chars, Token.startsNumber] at starts
  | cons => rfl

/-- The decimal text of a finite number is read as that number. -/
theorem readNumber_text (finite : x.isFinite = true) : readNumber (Number.text x) = x := by
  have trimmed : Text.trimChars (Number.text x).toList = (Number.text x).toList :=
    Text.trimChars_eq_self fun c mem => (isNumberChar_of_mem_text mem).2
  have read := Number.read?_text finite
  have allowed : (Number.text x).toList.all isNumberChar = true :=
    List.all_eq_true.mpr fun c mem => (isNumberChar_of_mem_text mem).1
  -- the names of the infinities hold letters that no number has
  have unnamed (name : String) (c : Char) (mem : c ∈ name.toList) (letter : isNumberChar c = false) :
      Number.text x ≠ name := by
    rintro rfl
    rw [(isNumberChar_of_mem_text mem).1] at letter
    cases letter
  unfold readNumber
  simp only [trimmed, isEmpty_text, allowed, String.ofList_toList, read, Option.getD_some]
  simp [unnamed "Infinity" 'I' (by decide) (by decide),
    unnamed "+Infinity" 'I' (by decide) (by decide),
    unnamed "-Infinity" 'I' (by decide) (by decide)]

theorem infinity_beq (infinite : x.isInf = true) (positive : x > 0.0) :
    (Number.infinity == x) = true := by
  have infinite : x.toModel.unpack.isInf = true := infinite
  have positive : (UnpackedFloat.zero .positive).compare x.toModel.unpack = some .lt :=
    (Number.lt_iff 0.0 x).mp positive
  change ((UnpackedFloat.infinity .positive).compare x.toModel.unpack == some .eq) = true
  revert infinite positive
  cases x.toModel.unpack with
  | notANumber | zero | finite => exact nofun
  | infinity sign => cases sign <;> decide

theorem neg_infinity_beq (infinite : x.isInf = true) (negative : ¬ x > 0.0) :
    (-Number.infinity == x) = true := by
  have infinite : x.toModel.unpack.isInf = true := infinite
  have negative : ¬ (UnpackedFloat.zero .positive).compare x.toModel.unpack = some .lt :=
    fun less => negative ((Number.lt_iff 0.0 x).mpr less)
  change ((UnpackedFloat.infinity .negative).compare x.toModel.unpack == some .eq) = true
  revert infinite negative
  cases x.toModel.unpack with
  | notANumber | zero | finite => exact nofun
  | infinity sign => cases sign <;> decide

/-- The text of a number is read as an equal number; of the zeros only one comes back. -/
theorem readNumber_numberText (number : x.isNaN = false) :
    (readNumber (numberText x) == x) = true := by
  unfold numberText
  rw [if_neg (Bool.eq_false_iff.mp number)]
  split
  next infinite =>
    split
    next positive =>
      have read : readNumber "Infinity" = Number.infinity := by decide +kernel
      rw [read]
      exact infinity_beq infinite positive
    next negative =>
      have read : readNumber "-Infinity" = -Number.infinity := by decide +kernel
      rw [read]
      exact neg_infinity_beq infinite negative
  next finite =>
    split
    next zero =>
      have read : readNumber "0" = 0.0 := by decide +kernel
      rw [read]
      exact Number.beq_symm zero
    next =>
      rw [readNumber_text (Form.isFinite_of_number number (Bool.eq_false_iff.mpr finite))]
      exact beq_self number

/-! ## Comparisons -/

theorem isNumeric_number (x : Float) : (number x).isNumeric = !x.isNaN := rfl

variable (left right : Value)

/-- With the operands turned around, a comparison is turned around. -/
theorem compare_swap : right.compare left = (left.compare right).swap := by
  unfold Value.compare
  rw [Bool.and_comm]
  split
  next =>
    rw [Number.order?_swap left.toRawNumber]
    cases Number.order? left.toRawNumber right.toRawNumber <;> rfl
  next => exact Std.OrientedOrd.eq_swap

theorem isNaN_toRawNumber (numeric : left.isNumeric = true) : left.toRawNumber.isNaN = false := by
  cases left with
  | number x =>
      rw [isNumeric_number, Bool.not_eq_true'] at numeric
      exact numeric
  | text s =>
      simp only [isNumeric, Bool.and_eq_true, Bool.not_eq_true'] at numeric
      exact numeric.2
  | bool b => cases b <;> decide
  | empty => decide

theorem compare_self : left.compare left = .eq := by
  unfold Value.compare
  split
  next numeric =>
    rw [Number.order?_self (isNaN_toRawNumber left (by simpa using numeric))]
    rfl
  next => exact Std.ReflOrd.compare_self

/-- A value equals a text that it has, if one of the two is no number. -/
theorem compare_toText_of_not_isNumeric
    (notBoth : (left.isNumeric && (text left.toText).isNumeric) = false) :
    left.compare (.text left.toText) = .eq := by
  unfold Value.compare
  rw [if_neg (Bool.eq_false_iff.mp notBoth)]
  exact Std.ReflOrd.compare_self

/-- A value equals its text. -/
theorem compare_toText : left.compare (.text left.toText) = .eq := by
  cases left with
  | text s => exact compare_self _
  | empty => exact compare_toText_of_not_isNumeric _ rfl
  | bool b =>
      refine compare_toText_of_not_isNumeric _ ?_
      cases b <;> decide
  | number x =>
      cases notNumber : x.isNaN with
      | true =>
          refine compare_toText_of_not_isNumeric _ ?_
          rw [isNumeric_number, notNumber, Bool.not_true, Bool.false_and]
      | false =>
          have same := Number.order?_of_beq (Number.beq_symm (readNumber_numberText notNumber))
          unfold Value.compare
          split
          next => exact congrArg (Option.getD · .eq) same
          next => exact Std.ReflOrd.compare_self

/-- Just one of less, loosely equal and greater holds. -/
theorem one_of_comparisons :
    [left.compare right == .lt, left.looselyEquals right, left.compare right == .gt].count true = 1 := by
  unfold looselyEquals
  cases left.compare right <;> rfl

end Value

/-! ## Comparing blocks -/

namespace Operator

variable {a b : Value} {args : Table Value} (first : args.get? "OPERAND1" = some a)
  (second : args.get? "OPERAND2" = some b)

include first second

theorem apply_lt : Operator.lt.apply args = .bool (a.compare b == .lt) := by
  simp [apply, first, second]

theorem apply_gt : Operator.gt.apply args = .bool (a.compare b == .gt) := by
  simp [apply, first, second]

theorem apply_equals : Operator.equals.apply args = .bool (a.looselyEquals b) := by
  simp [apply, first, second]

end Operator

/-- Comparisons are coherent.  Turning the operands around turns the outcome around, and a value equals
itself and its text; the text of a number is read as an equal number, that of NaN as NaN.  So of less,
loosely equal and greater exactly one holds.  Of the comparing blocks exactly one says so, and with the
operands turned around less and greater change places. -/
theorem comparisons_are_coherent (a b : Value) :
    b.compare a = (a.compare b).swap ∧
      a.compare a = .eq ∧
      a.compare (.text a.toText) = .eq ∧
      (∀ x, a = .number x → x.isNaN = false → ((Value.text a.toText).toRawNumber == x) = true) ∧
      (∀ x, a = .number x → x.isNaN = true → (Value.text a.toText).toRawNumber.isNaN = true) ∧
      [a.compare b == .lt, a.looselyEquals b, a.compare b == .gt].count true = 1 ∧
      ∀ args turned : Table Value,
        args.get? "OPERAND1" = some a → args.get? "OPERAND2" = some b →
        turned.get? "OPERAND1" = some b → turned.get? "OPERAND2" = some a →
        ([Operator.lt, .equals, .gt].map fun operator => operator.apply args).count (.bool true) = 1 ∧
          Operator.gt.apply turned = Operator.lt.apply args ∧
          Operator.equals.apply turned = Operator.equals.apply args ∧
          Operator.lt.apply turned = Operator.gt.apply args := by
  refine ⟨a.compare_swap b, a.compare_self, a.compare_toText, ?_, ?_, a.one_of_comparisons b, ?_⟩
  · rintro x rfl number
    exact Value.readNumber_numberText number
  · rintro x rfl notNumber
    have isText : (Value.number x).toText = "NaN" := if_pos notNumber
    rw [isText]
    decide +kernel
  · intro args turned first second turnedFirst turnedSecond
    rw [List.map_cons, List.map_cons, List.map_singleton, Operator.apply_lt first second,
      Operator.apply_equals first second, Operator.apply_gt first second,
      Operator.apply_gt turnedFirst turnedSecond, Operator.apply_equals turnedFirst turnedSecond,
      Operator.apply_lt turnedFirst turnedSecond]
    unfold Value.looselyEquals
    rw [a.compare_swap b]
    cases a.compare b <;> exact ⟨by decide, rfl, rfl, rfl⟩

/-- The arguments of a comparing block. -/
def operands (a b : Value) : Table Value := .ofList [("OPERAND1", a), ("OPERAND2", b)]

/-- Negative zero equals the number that its text is read as, NaN stays NaN, and NaN is neither less
than ten in blanks nor equal to it, but greater: it is compared by its text. -/
theorem nan_compared_with_padded_ten :
    (-(0.0 : Float)).isNaN = false ∧
      ((Value.text (Value.number (-0.0)).toText).toRawNumber == -0.0) = true ∧
      Number.nan.isNaN = true ∧
      (Value.text (Value.number Number.nan).toText).toRawNumber.isNaN = true ∧
      (operands (.number Number.nan) (.text " 1e1 ")).get? "OPERAND1" = some (.number Number.nan) ∧
      (operands (.number Number.nan) (.text " 1e1 ")).get? "OPERAND2" = some (.text " 1e1 ") ∧
      Operator.gt.apply (operands (.number Number.nan) (.text " 1e1 ")) = .bool true ∧
      Operator.lt.apply (operands (.text " 1e1 ") (.number Number.nan)) = .bool true := by
  obtain ⟨-, -, -, zero, -⟩ := comparisons_are_coherent (.number (-0.0)) .empty
  obtain ⟨-, -, -, -, nan, -, blocks⟩ :=
    comparisons_are_coherent (.number Number.nan) (.text " 1e1 ")
  obtain ⟨-, -, -, turned⟩ := blocks (operands (.number Number.nan) (.text " 1e1 "))
    (operands (.text " 1e1 ") (.number Number.nan)) rfl rfl rfl rfl
  have greater : Operator.gt.apply (operands (.number Number.nan) (.text " 1e1 ")) = .bool true := by
    decide +kernel
  exact ⟨by decide, zero _ rfl (by decide), by decide, nan _ rfl (by decide), rfl, rfl, greater,
    turned.trans greater⟩

end StepCode
