/-!
# Base 64

Three bytes are written as four characters.  A last group of one or two bytes is padded, and only
the one canonical way of writing it is read back.
-/

namespace StepCode.Base64

/-- The character for a value below 64. -/
def digit (value : Nat) : Char :=
  if value < 26 then Char.ofNat (65 + value)
  else if value < 52 then Char.ofNat (97 + (value - 26))
  else if value < 62 then Char.ofNat (48 + (value - 52))
  else if value = 62 then '+'
  else '/'

def value? (c : Char) : Option Nat :=
  let code := c.toNat
  if 65 ≤ code ∧ code ≤ 90 then some (code - 65)
  else if 97 ≤ code ∧ code ≤ 122 then some (code - 97 + 26)
  else if 48 ≤ code ∧ code ≤ 57 then some (code - 48 + 52)
  else if c = '+' then some 62
  else if c = '/' then some 63
  else none

def encodeBytes : List UInt8 → List Char
  | [] => []
  | [a] =>
      [digit (a.toNat / 4), digit (a.toNat % 4 * 16), '=', '=']
  | [a, b] =>
      [digit (a.toNat / 4), digit (a.toNat % 4 * 16 + b.toNat / 16),
        digit (b.toNat % 16 * 4), '=']
  | a :: b :: c :: rest =>
      digit (a.toNat / 4) :: digit (a.toNat % 4 * 16 + b.toNat / 16) ::
        digit (b.toNat % 16 * 4 + c.toNat / 64) :: digit (c.toNat % 64) :: encodeBytes rest

/-- The bytes of a group of four.  Padding stands only at the very end, and the bits it leaves over
are zero. -/
def decodeBytes? : List Char → Option (List UInt8)
  | [] => some []
  | p :: q :: r :: s :: rest => do
      let a ← value? p
      let b ← value? q
      if rest = [] ∧ s = '=' then
        if r = '=' then
          if b % 16 = 0 then some [UInt8.ofNat (a * 4 + b / 16)] else none
        else
          let c ← value? r
          if c % 4 = 0 then
            some [UInt8.ofNat (a * 4 + b / 16), UInt8.ofNat (b % 16 * 16 + c / 4)]
          else none
      else
        let c ← value? r
        let d ← value? s
        let others ← decodeBytes? rest
        some (UInt8.ofNat (a * 4 + b / 16) :: UInt8.ofNat (b % 16 * 16 + c / 4) ::
          UInt8.ofNat (c % 4 * 64 + d) :: others)
  | _ => none

/-- The text of the bytes of a text. -/
def encode (text : String) : String :=
  String.ofList (encodeBytes text.toUTF8.toList)

/-- The text that was encoded, if the bytes are a text at all. -/
def decode? (encoded : String) : Option String := do
  let bytes ← decodeBytes? encoded.toList
  String.fromUTF8? ⟨bytes.toArray⟩

end StepCode.Base64
