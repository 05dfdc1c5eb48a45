import StepCode.Proofs.Bootstrap
import StepCode.Proofs.Decimal.Special
import StepCode.Proofs.Host.Reachable
import StepCode.Proofs.Simulation.Reporters

/-!
# Remainders

The remainder block, and the helper that stands for it in step code.  Both compute by one formula, but
to the helper its own results are operands, and an operand that is NaN counts as zero.  Remainders by
a zero or an infinity are NaN to the block and the dividend to the helper; all others are the same.
-/

namespace StepCode

/-! ## The formula in steps -/

theorem Value.isNaN_toNumber (value : Value) : value.toNumber.isNaN = false := by
  unfold Value.toNumber
  dsimp only
  split
  next => decide
  next number => exact Bool.eq_false_iff.mpr number

/-- A number as an operand. -/
def Number.counted (x : Float) : Float := (Value.number x).toNumber

theorem Number.counted_of_number {x : Float} (number : x.isNaN = false) : counted x = x :=
  if_neg (Bool.eq_false_iff.mp number)

theorem Number.counted_of_isNaN {x : Float} (notNumber : x.isNaN = true) : counted x = 0.0 :=
  if_pos notNumber

/-- The remainder, each step of which is an operand of the next. -/
def steppedMod (x y : Float) : Float :=
  x - Number.counted (y * Number.counted (Number.floor (Number.counted (x / y))))

section

variable {x y : Float}

/-- Nothing on the way is NaN if the divisor is finite and not zero. -/
theorem steppedMod_of_isProper (isX : x.isNaN = false) (proper : Decimal.isProper y = true) :
    steppedMod x y = Operator.floorMod x y := by
  have quotient : (x / y).isNaN = false := (Decimal.isNaN_scaled isX proper).2
  have whole : (Number.floor (x / y)).isNaN = false := isNaN_floor quotient
  have product : (y * Number.floor (x / y)).isNaN = false := isNaN_mul_left proper whole
  unfold steppedMod Operator.floorMod
  rw [Number.counted_of_number quotient, Number.counted_of_number whole,
    Number.counted_of_number product]

theorem nan_beq (x : Float) : (Number.nan == x) = false := rfl

theorem floorMod_of_not_isProper (isX : x.isNaN = false) (isY : y.isNaN = false)
    (improper : Decimal.isProper y = false) : Operator.floorMod x y = Number.nan := by
  refine eq_nan_of_isNaN (isNaN_sub_right x ?_)
  rcases quotient_of_not_isProper isX isY improper with lost | ⟨-, whole, lost⟩
  · have whole : Number.floor (x / y) = x / y :=
      floor_of_special (by rw [isNaN_iff.mp lost]; trivial)
    rw [whole]
    exact isNaN_mul_right y lost
  · rw [whole]
    exact lost

/-- What the last step takes away counts as zero, however the quotient came out. -/
theorem counted_product_of_not_isProper (isX : x.isNaN = false) (isY : y.isNaN = false)
    (improper : Decimal.isProper y = false) :
    ∃ sign, (Number.counted (y * Number.counted (Number.floor (Number.counted (x / y))))).toModel.unpack
      = .zero sign := by
  have lost {product : Float} (notNumber : product.isNaN = true) :
      ∃ sign, (Number.counted product).toModel.unpack = .zero sign :=
    ⟨.positive, by rw [Number.counted_of_isNaN notNumber]; rfl⟩
  rcases quotient_of_not_isProper isX isY improper with notNumber | ⟨quotient, whole, notNumber⟩
  · have zero : Number.counted (Number.floor (0.0 : Float)) = 0.0 := by decide +kernel
    rw [Number.counted_of_isNaN notNumber, zero]
    obtain ⟨sign, isZero | isInfinite⟩ := unpack_of_not_isProper isY improper
    · have product : (y * 0.0).toModel.unpack = .zero (sign * .positive) :=
        unpack_mul trivial (by rw [isZero]; rfl)
      have number : (y * 0.0).isNaN = false := by
        change (y * 0.0).toModel.unpack.isNaN = false
        rw [product]
        rfl
      exact ⟨_, by rw [Number.counted_of_number number, product]⟩
    · exact lost (isNaN_iff.mpr (unpack_mul trivial (by rw [isInfinite]; rfl)))
  · rw [Number.counted_of_number quotient, whole, Number.counted_of_number quotient]
    exact lost notNumber

theorem steppedMod_of_not_isProper (isX : x.isNaN = false) (isY : y.isNaN = false)
    (improper : Decimal.isProper y = false) : (steppedMod x y == x) = true := by
  obtain ⟨sign, zero⟩ := counted_product_of_not_isProper isX isY improper
  exact sub_zero_beq isX zero

end

/-! ## The helper -/

/-- The compiler ships the helper as a text. -/
theorem parse_modulo :
    (compilerHelpers.get? "modulo").map Helper.parse = some (.ok .modulo) := by
  have sources : Bootstrap.acceptedSources compilerHelpers = (compilerHelpers.get? "modulo").toList := by
    decide +kernel
  have accepted := Bootstrap.accepted_compilerHelpers
  rw [sources] at accepted
  cases found : compilerHelpers.get? "modulo" with
  | none => rw [found] at accepted; cases accepted
  | some source =>
      rw [found] at accepted
      cases accepted with
      | cons parsed _ => exact congrArg some parsed

theorem apply_modulo (value other : Value) :
    Builtin.sub.apply [value, Builtin.mul.apply [other,
      Builtin.floor.apply [Builtin.div.apply [value, other]]]] =
      .number (steppedMod value.toNumber other.toNumber) := rfl

section

variable {foreign : Foreign} {routine : Routine} {params : Table Value} {turn : Turn}

theorem eval_modulo (found : routine.helpers.get? "modulo" = some .modulo) {first second : Expr}
    {value other : Value} (isFirst : Yields (eval foreign routine params first) turn value)
    (isSecond : Yields (eval foreign routine params second) turn other) :
    Yields (eval foreign routine params (.helper "modulo" [first, second])) turn
      (.number (steppedMod value.toNumber other.toNumber)) := by
  have room : innerEval foreign routine helperLimit =
      some (evalWith foreign routine (innerEval foreign routine 63)) := rfl
  unfold eval at *
  rw [room] at *
  simp only [evalWith, found]
  rw [← apply_modulo]
  refine (evalFirst_yields (.cons isFirst (.cons isSecond .nil))).bind ?_
  have dividend : ∀ inner, Yields (evalWith foreign routine inner
      (bindParams Helper.modulo.params [value, other]) (.param "a")) turn value := by
    intro inner
    rw [evalWith]
    exact .pure _ _
  have divisor : ∀ inner, Yields (evalWith foreign routine inner
      (bindParams Helper.modulo.params [value, other]) (.param "b")) turn other := by
    intro inner
    rw [evalWith]
    exact .pure _ _
  refine evalWith_builtin (by decide) (.cons (dividend _) (.cons ?_ .nil))
  refine evalWith_builtin (by decide) (.cons (divisor _) (.cons ?_ .nil))
  refine evalWith_builtin (by decide) (.cons ?_ .nil)
  exact evalWith_builtin (by decide) (.cons (dividend _) (.cons (divisor _) .nil))

/-- The remainder block and the helper report the same exactly if the divisor is finite and not zero.
Otherwise the block reports NaN, and the helper its first operand as a number. -/
theorem remainders_agree_but_by_zeros_and_infinities {id : String} {args : Table Value}
    {left right : Turn} {first second : Expr} {value other : Value} {helper : Helper}
    (shipped : (compilerHelpers.get? "modulo").map Helper.parse = some (.ok helper))
    (found : routine.helpers.get? "modulo" = some helper)
    (isDividend : args.get? "NUM1" = some value) (isDivisor : args.get? "NUM2" = some other)
    (isFirst : Yields (eval foreign routine params first) right value)
    (isSecond : Yields (eval foreign routine params second) right other) :
    ∃ reported computed,
      Yields (report foreign id "operator_mod" args) left reported ∧
      Yields (eval foreign routine params (.helper "modulo" [first, second])) right computed ∧
      (computed = reported ↔ Decimal.isProper other.toNumber = true) ∧
      (Decimal.isProper other.toNumber = false →
        reported = .number Number.nan ∧ computed.same (.number value.toNumber) = true) := by
  obtain rfl : Helper.modulo = helper := by
    have parsed := parse_modulo.symm.trans shipped
    exact Except.ok.inj (Option.some.inj parsed)
  have isX := value.isNaN_toNumber
  have isY := other.isNaN_toNumber
  have isReported : Operator.mod.apply args =
      .number (Operator.floorMod value.toNumber other.toNumber) := by
    simp [Operator.apply, isDividend, isDivisor]
  refine ⟨_, _, report_operator rfl args, eval_modulo found isFirst isSecond, ?_, fun improper => ?_⟩
  · rw [isReported]
    cases proper : Decimal.isProper other.toNumber with
    | true => simp [steppedMod_of_isProper isX proper]
    | false =>
        have isNumber := steppedMod_of_not_isProper isX isY proper
        refine iff_of_false (fun same => ?_) Bool.false_ne_true
        rw [Value.number.inj same, floorMod_of_not_isProper isX isY proper, nan_beq] at isNumber
        cases isNumber
  · rw [isReported, floorMod_of_not_isProper isX isY improper]
    exact ⟨rfl, steppedMod_of_not_isProper isX isY improper⟩

end

def countingTurn : Turn := ⟨Host.start ⟨[], [], .empty, .empty⟩, .start 0 0 ""⟩

/-- The operands seven, as a text, and minus three. -/
def countingArgs : Table Value := .ofList [("NUM1", .text "7"), ("NUM2", .number (-3.0))]

theorem remainder_by_minus_three :
    (compilerHelpers.get? "modulo").map Helper.parse = some (.ok .modulo) ∧
      Routine.helped.helpers.get? "modulo" = some .modulo ∧
      ∃ value, Yields (report idleForeign "m" "operator_mod" countingArgs) countingTurn value ∧
        Yields (eval idleForeign Routine.helped .empty
          (.helper "modulo" [.text "7", .number (-3.0)])) countingTurn value ∧
        value = .number (-2.0) := by
  have found : Routine.helped.helpers.get? "modulo" = some .modulo := rfl
  have isDividend : countingArgs.get? "NUM1" = some (.text "7") := rfl
  have isDivisor : countingArgs.get? "NUM2" = some (.number (-3.0)) := rfl
  have isFirst : Yields (eval idleForeign Routine.helped .empty (.text "7")) countingTurn
    (.text "7") := eval_text "7"
  obtain ⟨reported, computed, reports, computes, agree, -⟩ :=
    remainders_agree_but_by_zeros_and_infinities parse_modulo found isDividend isDivisor isFirst
      (eval_number (-3.0))
  obtain rfl := agree.mpr (by decide +kernel)
  have isMinusTwo : steppedMod (Value.text "7").toNumber (Value.number (-3.0)).toNumber = -2.0 := by
    decide +kernel
  refine ⟨parse_modulo, found, computed, reports, computes, ?_⟩
  rw [← isMinusTwo]
  exact computes.unique (eval_modulo found isFirst (eval_number (-3.0)))

/-- One divided by zero leaves one in step code, and nothing that is a number in blocks. -/
theorem remainders_by_zero_disagree :
    (compilerHelpers.get? "modulo").map Helper.parse = some (.ok .modulo) ∧
      Routine.helped.helpers.get? "modulo" = some .modulo ∧
      Yields (report idleForeign "m" "operator_mod"
        (.ofList [("NUM1", .number 1.0), ("NUM2", .number 0.0)])) countingTurn (.number Number.nan) ∧
      Yields (eval idleForeign Routine.helped .empty
        (.helper "modulo" [.number 1.0, .number 0.0])) countingTurn (.number 1.0) ∧
      Value.number 1.0 ≠ .number Number.nan := by
  have found : Routine.helped.helpers.get? "modulo" = some .modulo := rfl
  have reported : Operator.mod.apply (.ofList [("NUM1", .number 1.0), ("NUM2", .number 0.0)]) =
      .number Number.nan := by decide +kernel
  have computed : steppedMod (Value.number 1.0).toNumber (Value.number 0.0).toNumber = 1.0 := by
    decide +kernel
  refine ⟨parse_modulo, found, ?_, ?_, by decide +kernel⟩
  · rw [← reported]
    exact report_operator rfl _
  · rw [← computed]
    exact eval_modulo found (eval_number 1.0) (eval_number 0.0)

end StepCode
