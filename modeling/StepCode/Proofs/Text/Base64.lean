import Mathlib.Tactic.IntervalCases
import StepCode.Text.Base64

/-!
# Base 64 and back

Decoding inverts encoding.
-/

namespace StepCode.Base64

theorem value?_digit {value : Nat} (small : value < 64) : value? (digit value) = some value := by
  interval_cases value <;> rfl

theorem digit_ne_padding {value : Nat} (small : value < 64) : digit value ≠ '=' := by
  interval_cases value <;> decide

theorem ofNat_eq {n : Nat} {byte : UInt8} (same : n = byte.toNat) : UInt8.ofNat n = byte := by
  subst same
  exact UInt8.ofNat_toNat

theorem decodeBytes?_encodeBytes (bytes : List UInt8) :
    decodeBytes? (encodeBytes bytes) = some bytes := by
  match bytes with
  | [] => rfl
  | [a] =>
      have hA := a.toNat_lt
      have first : UInt8.ofNat (a.toNat / 4 * 4 + a.toNat % 4 * 16 / 16) = a := ofNat_eq (by omega)
      have zeros : a.toNat % 4 * 16 % 16 = 0 := by omega
      rw [encodeBytes, decodeBytes?, value?_digit (by omega), value?_digit (by omega)]
      simp only [Option.bind_eq_bind, Option.bind_some, and_self, if_true, zeros, first]
  | [a, b] =>
      have hA := a.toNat_lt
      have hB := b.toNat_lt
      have first : UInt8.ofNat (a.toNat / 4 * 4 + (a.toNat % 4 * 16 + b.toNat / 16) / 16) = a :=
        ofNat_eq (by omega)
      have second : UInt8.ofNat ((a.toNat % 4 * 16 + b.toNat / 16) % 16 * 16 +
          b.toNat % 16 * 4 / 4) = b := ofNat_eq (by omega)
      have zeros : b.toNat % 16 * 4 % 4 = 0 := by omega
      have plain : digit (b.toNat % 16 * 4) ≠ '=' := digit_ne_padding (by omega)
      rw [encodeBytes, decodeBytes?, value?_digit (by omega), value?_digit (by omega),
        value?_digit (by omega)]
      simp only [Option.bind_eq_bind, Option.bind_some, and_self, if_true, plain, if_false, zeros,
        first, second]
  | a :: b :: c :: rest =>
      have hA := a.toNat_lt
      have hB := b.toNat_lt
      have hC := c.toNat_lt
      have first : UInt8.ofNat (a.toNat / 4 * 4 + (a.toNat % 4 * 16 + b.toNat / 16) / 16) = a :=
        ofNat_eq (by omega)
      have second : UInt8.ofNat ((a.toNat % 4 * 16 + b.toNat / 16) % 16 * 16 +
          (b.toNat % 16 * 4 + c.toNat / 64) / 4) = b := ofNat_eq (by omega)
      have third : UInt8.ofNat ((b.toNat % 16 * 4 + c.toNat / 64) % 4 * 64 + c.toNat % 64) = c :=
        ofNat_eq (by omega)
      have plain : digit (c.toNat % 64) ≠ '=' := digit_ne_padding (by omega)
      rw [encodeBytes, decodeBytes?, value?_digit (by omega), value?_digit (by omega),
        value?_digit (by omega), value?_digit (by omega), decodeBytes?_encodeBytes rest]
      simp only [Option.bind_eq_bind, Option.bind_some, plain, and_false, if_false, first, second,
        third]

theorem toList_loop (bytes : ByteArray) (start : Nat) (read : List UInt8) :
    ByteArray.toList.loop bytes start read = read.reverse ++ bytes.data.toList.drop start := by
  fun_induction ByteArray.toList.loop bytes start read with
  | case1 start read inside ih =>
      have inData : start < bytes.data.toList.length := by simpa using inside
      have byte : bytes.get! start = bytes.data.toList.get ⟨start, inData⟩ := by
        simp [ByteArray.get!, getElem!_pos bytes.data start (by simpa using inside)]
      rw [ih, List.drop_eq_getElem_cons inData, byte]
      simp
  | case2 start read outside =>
      have behind : bytes.data.toList.length ≤ start := by simpa using outside
      simp [List.drop_eq_nil_of_le behind]

/-- The bytes of an array, and the array of these bytes. -/
theorem toArray_toList (bytes : ByteArray) : (⟨bytes.toList.toArray⟩ : ByteArray) = bytes := by
  have all : bytes.toList = bytes.data.toList := by
    simpa [ByteArray.toList] using toList_loop bytes 0 []
  simp [all]

/-- Every text is read back from its encoding. -/
theorem decode?_encode (text : String) : decode? (encode text) = some text := by
  have valid : text.toByteArray.IsValidUTF8 := text.isValidUTF8
  simp [decode?, encode, decodeBytes?_encodeBytes, toArray_toList, String.fromUTF8?, valid,
    String.fromUTF8]

end StepCode.Base64
