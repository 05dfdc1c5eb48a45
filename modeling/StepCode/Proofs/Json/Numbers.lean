import Mathlib.Data.List.TakeWhile
import Mathlib.Tactic.IntervalCases
import StepCode.Json.NumberReader

/-!
# JSON numbers are read back

What stands behind a value in a tree is no part of any number, so a number that is read from its own text
is read in its place too.  Integers of 64 bits always are; other numbers need not be, because their
digits are scaled in floating-point arithmetic.
-/

namespace StepCode.Json

variable {chars rest : List Char} {value : Json}

/-- What may stand behind a value: nothing, or a character that separates or closes. -/
def Closes (rest : List Char) : Prop :=
  ∀ c ∈ rest.head?, c = ',' ∨ c = ']' ∨ c = '\x7d'

theorem Closes.nil : Closes [] := nofun

theorem closes_comma : Closes (',' :: rest) := by simp [Closes]

theorem closes_bracket : Closes (']' :: rest) := by simp [Closes]

theorem closes_brace : Closes ('\x7d' :: rest) := by simp [Closes]

/-! ## Numbers -/

theorem Closes.takeWhile_eq_nil (closes : Closes rest) : rest.takeWhile Char.isDigit = [] := by
  cases rest with
  | nil => rfl
  | cons c rest => rcases closes c rfl with rfl | rfl | rfl <;> rfl

theorem Closes.dropWhile_eq_self (closes : Closes rest) : rest.dropWhile Char.isDigit = rest := by
  cases rest with
  | nil => rfl
  | cons c rest => rcases closes c rfl with rfl | rfl | rfl <;> rfl

theorem Closes.takeWhile_append (closes : Closes rest) (chars : List Char) :
    (chars ++ rest).takeWhile Char.isDigit = chars.takeWhile Char.isDigit := by
  rw [List.takeWhile_append]
  split
  next whole =>
    rw [closes.takeWhile_eq_nil, List.append_nil]
    exact ((List.takeWhile_prefix _).eq_of_length whole).symm
  next => rfl

theorem Closes.dropWhile_append (closes : Closes rest) (chars : List Char) :
    (chars ++ rest).dropWhile Char.isDigit = chars.dropWhile Char.isDigit ++ rest := by
  rw [List.dropWhile_append]
  split
  next nothing => rw [closes.dropWhile_eq_self, List.isEmpty_iff.mp nothing, List.nil_append]
  next => rfl

variable {minus negative : Bool} {significand : Nat} {exponent : Int} {start stop : Nat}

theorem finish_eq_ok {cursor after : Cursor}
    (done : finish minus significand exponent cursor = .ok (value, after)) :
    after = cursor ∧ ∀ other, finish minus significand exponent other = .ok (value, other) := by
  unfold finish at done ⊢
  split at done
  · obtain ⟨rfl, rfl⟩ := Prod.mk.inj (Except.ok.inj done)
    exact ⟨rfl, fun _ => rfl⟩
  · cases done

/-- Whether a fault would be reported depends on what follows, but not what is read. -/
theorem readPower_append (closes : Closes rest)
    (done : readPower minus significand exponent negative chars start = .ok (value, ⟨[], stop⟩))
    (other : Nat) :
    ∃ stop, readPower minus significand exponent negative (chars ++ rest) other =
      .ok (value, ⟨rest, stop⟩) := by
  unfold readPower at done ⊢
  simp only [closes.takeWhile_append, closes.dropWhile_append] at done ⊢
  by_cases empty : (chars.takeWhile Char.isDigit).isEmpty = true
  · rw [if_pos empty] at done
    cases done
  rw [if_neg empty] at done ⊢
  split at done
  next fits =>
    obtain ⟨isEnd, always⟩ := finish_eq_ok done
    rw [if_pos fits, always, ← (Cursor.mk.inj isEnd).1]
    exact ⟨_, rfl⟩
  next excess =>
    split at done
    · cases done
    next small =>
      obtain ⟨rfl, isEnd⟩ := Prod.mk.inj (Except.ok.inj done)
      rw [if_neg excess, if_neg small, (Cursor.mk.inj isEnd).1]
      exact ⟨_, rfl⟩

theorem readExponent_append (closes : Closes rest)
    (done : readExponent minus significand exponent chars start = .ok (value, ⟨[], stop⟩))
    (other : Nat) :
    ∃ stop, readExponent minus significand exponent (chars ++ rest) other =
      .ok (value, ⟨rest, stop⟩) := by
  unfold readExponent at done
  split at done
  next tail => exact readPower_append closes done (other + 1)
  next tail => exact readPower_append closes done (other + 1)
  next notPlus notMinus =>
    have same : readExponent minus significand exponent (chars ++ rest) other =
        readPower minus significand exponent false (chars ++ rest) other := by
      obtain _ | ⟨c, tail⟩ := chars
      · simp [readPower] at done
      · unfold readExponent
        split
        next isPlus => exact (notPlus _ (congrArg (· :: tail) (List.cons.inj isPlus).1)).elim
        next isMinus => exact (notMinus _ (congrArg (· :: tail) (List.cons.inj isMinus).1)).elim
        · rfl
    rw [same]
    exact readPower_append closes done other

theorem readEnd_append (closes : Closes rest)
    (done : readEnd minus significand exponent ⟨chars, start⟩ = .ok (value, ⟨[], stop⟩))
    (other : Nat) :
    ∃ stop, readEnd minus significand exponent ⟨chars ++ rest, other⟩ =
      .ok (value, ⟨rest, stop⟩) := by
  unfold readEnd at done ⊢
  obtain _ | ⟨c, chars⟩ := chars
  · have always := (finish_eq_ok done).2
    obtain _ | ⟨c, rest⟩ := rest
    · exact ⟨_, always _⟩
    · have notMark : ¬ (c = 'e' ∨ c = 'E') := by
        rcases closes c rfl with rfl | rfl | rfl <;> decide
      exact ⟨_, (if_neg notMark).trans (always _)⟩
  · dsimp only [List.cons_append] at done ⊢
    split at done
    next mark =>
      rw [if_pos mark]
      exact readExponent_append closes done _
    next => simpa using (finish_eq_ok done).1

theorem readScaled_append (closes : Closes rest)
    (done : readScaled minus significand exponent ⟨chars, start⟩ = .ok (value, ⟨[], stop⟩))
    (other : Nat) :
    ∃ stop, readScaled minus significand exponent ⟨chars ++ rest, other⟩ =
      .ok (value, ⟨rest, stop⟩) := by
  obtain _ | ⟨c, chars⟩ := chars
  · have notPoint : ∀ other, readScaled minus significand exponent ⟨rest, other⟩ =
        readEnd minus significand exponent ⟨rest, other⟩ := by
      intro other
      obtain _ | ⟨c, rest⟩ := rest
      · rfl
      · rcases closes c rfl with rfl | rfl | rfl <;> rfl
    have ended : readEnd minus significand exponent ⟨[], start⟩ = .ok (value, ⟨[], stop⟩) := done
    rw [List.nil_append, notPoint, ← List.nil_append rest]
    exact readEnd_append closes ended other
  · by_cases point : c = '.'
    · subst point
      unfold readScaled at done ⊢
      simp only [List.cons_append, closes.takeWhile_append, closes.dropWhile_append] at done ⊢
      split at done
      · cases done
      next nonempty =>
        rw [if_neg nonempty]
        exact readEnd_append closes done _
    · have notPoint : ∀ tail other, readScaled minus significand exponent ⟨c :: tail, other⟩ =
          readEnd minus significand exponent ⟨c :: tail, other⟩ := by
        intro tail other
        unfold readScaled
        split
        next isPoint => exact absurd (List.cons.inj isPoint).1 point
        · rfl
      rw [notPoint] at done
      rw [List.cons_append, notPoint]
      exact readEnd_append closes done other

/-- A number that ends a text is the same in front of whatever closes. -/
theorem readNumber_append (closes : Closes rest)
    (done : readNumber minus ⟨chars, start⟩ = .ok (value, ⟨[], stop⟩)) (other : Nat) :
    ∃ stop, readNumber minus ⟨chars ++ rest, other⟩ = .ok (value, ⟨rest, stop⟩) := by
  have scaled : isScaled (chars.dropWhile Char.isDigit ++ rest) =
      isScaled (chars.dropWhile Char.isDigit) := by
    cases chars.dropWhile Char.isDigit with
    | cons c tail => rfl
    | nil => cases rest with
      | nil => rfl
      | cons c rest => rcases closes c rfl with rfl | rfl | rfl <;> rfl
  unfold readNumber at done ⊢
  simp only [closes.takeWhile_append, closes.dropWhile_append, scaled] at done ⊢
  split at done
  next => cases done
  next => cases done
  next =>
    split at done
    next whole =>
      obtain ⟨rfl, isEnd⟩ := Prod.mk.inj (Except.ok.inj done)
      rw [if_pos whole, (Cursor.mk.inj isEnd).1]
      exact ⟨_, rfl⟩
    next notWhole =>
      rw [if_neg notWhole]
      exact readScaled_append closes done _

/-! ## Integers -/

theorem takeDigits_of_fits {digits : List Char} {significand : Nat}
    (fits : Nat.ofDigitChars 10 digits significand ≤ significandLimit) :
    takeDigits significand digits = (Nat.ofDigitChars 10 digits significand, []) := by
  induction digits generalizing significand with
  | nil => rfl
  | cons c digits ih =>
      rw [Nat.ofDigitChars_cons, Nat.mul_comm] at fits ⊢
      have grows : significand * 10 + digitValue c ≤
          Nat.ofDigitChars 10 digits (significand * 10 + digitValue c) := by
        rw [Nat.ofDigitChars_eq_ofDigitChars_zero]
        exact Nat.le_trans (Nat.le_mul_of_pos_left _ (Nat.pow_pos (by decide))) (Nat.le_add_right _ _)
      rw [takeDigits, if_pos (Nat.le_trans grows fits)]
      exact ih fits

/-- The digits of a number begin with a zero only for zero. -/
theorem toDigits_head {n : Nat} (positive : 0 < n) :
    ∃ c rest, Nat.toDigits 10 n = c :: rest ∧ c ≠ '0' := by
  induction n using Nat.strongRecOn with
  | _ n ih =>
      rcases Nat.lt_or_ge n 10 with small | large
      · refine ⟨_, _, Nat.toDigits_of_lt_base small, ?_⟩
        interval_cases n <;> decide
      · obtain ⟨c, rest, isDigits, notZero⟩ := ih (n / 10) (by omega) (by omega)
        exact ⟨c, _, by rw [Nat.toDigits_of_base_le (by decide) large, isDigits]; rfl, notZero⟩

/-- The digits of a 64-bit number are read as an integer. -/
theorem readNumber_toDigits {n : Nat} (fits : n < 2 ^ 64) (minus : Bool) (offset : Nat) :
    ∃ stop, readNumber minus ⟨Nat.toDigits 10 n, offset⟩ = .ok (integer minus n, ⟨[], stop⟩) := by
  have digits : ∀ c ∈ Nat.toDigits 10 n, c.isDigit = true := fun c mem =>
    Nat.isDigit_of_mem_toDigits (by decide) (by decide) mem
  have taken : takeDigits 0 (Nat.toDigits 10 n) = (n, []) := by
    have value : Nat.ofDigitChars 10 (Nat.toDigits 10 n) 0 = n :=
      Nat.ofDigitChars_toDigits (by decide) (by decide)
    rw [takeDigits_of_fits, value]
    rw [value, significandLimit, Nat.pow_eq]
    omega
  unfold readNumber
  simp only [List.takeWhile_eq_self_iff.mpr digits, List.dropWhile_eq_nil_iff.mpr digits]
  split
  next isNil => exact absurd isNil Nat.toDigits_ne_nil
  next isZero =>
    rcases Nat.eq_zero_or_pos n with rfl | positive
    · cases isZero
    · obtain ⟨c, rest, isDigits, notZero⟩ := toDigits_head positive
      exact absurd (List.cons.inj (isDigits.symm.trans isZero)).1 notZero
  next =>
    rw [taken]
    exact ⟨_, rfl⟩

theorem ne_of_isDigit {c d : Char} (isDigit : c.isDigit = true) (notDigit : d.isDigit = false) :
    c ≠ d := by
  rintro rfl
  exact Bool.false_ne_true (notDigit.symm.trans isDigit)

/-- Behind a sign, or without one, a number begins with a digit. -/
theorem starts_of_readNumber {after : Cursor}
    (done : readNumber minus ⟨chars, start⟩ = .ok (value, after)) :
    ∃ c digits, chars = c :: digits ∧ c.isDigit = true := by
  obtain _ | ⟨c, digits⟩ := chars
  · cases done
  · refine ⟨c, digits, rfl, ?_⟩
    by_contra notDigit
    simp [readNumber, notDigit] at done

/-- Read a number with its sign. -/
def readSigned : List Char → Except Fault (Json × Cursor)
  | '-' :: digits => readNumber true ⟨digits, 1⟩
  | chars => readNumber false ⟨chars, 0⟩

/-- The value of a text that is nothing but a number. -/
def wholeNumber? (chars : List Char) : Option Json :=
  match readSigned chars with
  | .ok (value, ⟨[], _⟩) => some value
  | _ => none

theorem wholeNumber?_eq_some :
    wholeNumber? chars = some value ↔ ∃ stop, readSigned chars = .ok (value, ⟨[], stop⟩) := by
  unfold wholeNumber?
  constructor
  · intro isNumber
    split at isNumber
    next other stop done => exact ⟨stop, by rw [done, Option.some.inj isNumber]⟩
    next => cases isNumber
  · rintro ⟨stop, done⟩
    rw [done]

theorem readSigned_int {i : Int} (low : -2 ^ 63 ≤ i) (high : i < 2 ^ 64) :
    ∃ stop, readSigned (toString i).toList = .ok (.int i, ⟨[], stop⟩) := by
  rw [Int.toString_eq_repr]
  cases i with
  | ofNat n =>
      obtain ⟨stop, done⟩ := readNumber_toDigits (n := n) (by simpa using high) false 0
      obtain ⟨c, digits, isText, isDigit⟩ := starts_of_readNumber done
      rw [Int.repr, Nat.toList_repr, isText, readSigned, ← isText]
      · exact ⟨stop, done⟩
      · exact fun _ isMinus => ne_of_isDigit isDigit rfl (List.cons.inj isMinus).1
  | negSucc n =>
      obtain ⟨stop, done⟩ := readNumber_toDigits (n := n + 1) (by omega) true 1
      have text : (Int.negSucc n).repr.toList = '-' :: Nat.toDigits 10 (n + 1) := by
        rw [Int.repr, String.toList_append, Nat.toList_repr]
        rfl
      have fits : ¬ (n + 1 = 0 ∨ Nat.pow 2 63 < n + 1) := by
        rw [Nat.pow_eq]
        omega
      have whole : integer true (n + 1) = .int (Int.negSucc n) := by
        rw [integer, Bool.not_true, if_neg Bool.false_ne_true, if_neg fits]
        rfl
      rw [text, ← whole]
      exact ⟨stop, done⟩

end StepCode.Json
