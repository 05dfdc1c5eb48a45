import StepCode.Proofs.Decimal.Special

/-!
# The order of numbers

Turning the operands around turns the order of two numbers around, and every number but NaN equals
itself.
-/

namespace StepCode

open Float.Model (UnpackedFloat)

theorem compare_sign_swap (left right : UnpackedFloat.Sign) :
    compare right left = (compare left right).swap := by
  cases left <;> cases right <;> rfl

theorem UnpackedFloat.compare_swap (left right : UnpackedFloat) :
    right.compare left = (left.compare right).map Ordering.swap := by
  cases left with
  | notANumber => cases right <;> rfl
  | infinity sign =>
      cases right with
      | notANumber => cases sign <;> rfl
      | infinity other => exact congrArg some (compare_sign_swap sign other)
      | zero other => cases sign <;> rfl
      | finite other => cases sign <;> cases other <;> rfl
  | zero sign =>
      cases right with
      | notANumber | zero => rfl
      | infinity other => cases other <;> rfl
      | finite other => cases other <;> rfl
  | finite sign mantissa exponent positive =>
      cases right with
      | notANumber => cases sign <;> rfl
      | infinity other => cases sign <;> cases other <;> rfl
      | zero other => cases sign <;> rfl
      | finite other otherMantissa otherExponent otherPositive =>
          have swapped : ((compare exponent otherExponent).then (compare mantissa otherMantissa)).swap =
              (compare otherExponent exponent).then (compare otherMantissa mantissa) := by
            rw [Ordering.swap_then, ← Std.OrientedOrd.eq_swap, ← Std.OrientedOrd.eq_swap]
          cases sign <;> cases other <;>
            simp [UnpackedFloat.compare, ← swapped]

namespace Number

variable (x y : Float)

theorem lt_iff : x < y ↔ x.toModel.unpack.compare y.toModel.unpack = some .lt := by
  have isLess : x < y ↔ (x.toModel.unpack.compare y.toModel.unpack == some .lt) = true :=
    decide_eq_true_iff
  rw [isLess, beq_iff_eq]

/-- The order of two numbers is that of their parts. -/
theorem order?_eq : order? x y = x.toModel.unpack.compare y.toModel.unpack := by
  have same : (x == y) = (x.toModel.unpack.compare y.toModel.unpack == some .eq) := rfl
  have swapped := UnpackedFloat.compare_swap x.toModel.unpack y.toModel.unpack
  simp only [order?, gt_iff_lt, lt_iff, same, beq_iff_eq, swapped]
  cases x.toModel.unpack.compare y.toModel.unpack with
  | none => rfl
  | some order => cases order <;> rfl

theorem order?_swap : order? y x = (order? x y).map Ordering.swap := by
  rw [order?_eq, order?_eq, UnpackedFloat.compare_swap]

variable {x y}

theorem order?_of_beq (same : (x == y) = true) : order? x y = some .eq := by
  rw [order?_eq]
  exact beq_iff_eq.mp same

theorem beq_symm (same : (x == y) = true) : (y == x) = true := by
  have turned := order?_swap x y
  rw [order?_of_beq same, order?_eq] at turned
  change (y.toModel.unpack.compare x.toModel.unpack == some .eq) = true
  rw [turned]
  rfl

theorem order?_self (number : x.isNaN = false) : order? x x = some .eq :=
  order?_of_beq (beq_self number)

end Number

end StepCode
