/-!
# Decoding UTF-8

* `decode` : bytes as characters. A stretch of bytes that is no character, but may begin one, gives one `none`;
* `render` : the text of decoded bytes, with U+FFFD for each `none`.
-/

namespace NoiseFile.Text

/-- A character of which some bytes are still to come; the next lies between `low` and `high`. -/
structure Partial where
  value : Nat
  left : Nat
  low : Nat
  high : Nat

inductive Lead
  | char (c : Char)
  | more (pending : Partial)
  | bad

/-- The reading of a first byte. The bounds on the second byte leave out overlong forms, surrogates and numbers past
the last character. -/
def Lead.ofByte (b : Nat) : Lead :=
  if b < 0x80 then .char (Char.ofNat b)
  else if 0xC2 ≤ b ∧ b ≤ 0xDF then .more ⟨b - 0xC0, 0, 0x80, 0xBF⟩
  else if b = 0xE0 then .more ⟨0, 1, 0xA0, 0xBF⟩
  else if b = 0xED then .more ⟨0xD, 1, 0x80, 0x9F⟩
  else if 0xE1 ≤ b ∧ b ≤ 0xEF then .more ⟨b - 0xE0, 1, 0x80, 0xBF⟩
  else if b = 0xF0 then .more ⟨0, 2, 0x90, 0xBF⟩
  else if 0xF1 ≤ b ∧ b ≤ 0xF3 then .more ⟨b - 0xF0, 2, 0x80, 0xBF⟩
  else if b = 0xF4 then .more ⟨4, 2, 0x80, 0x8F⟩
  else .bad

/-- Decodes the bytes that follow those of a character already begun, if one is. -/
def decodeFrom : Option Partial → List UInt8 → List (Option Char)
  | none, [] => []
  | some _, [] => [none]
  | none, b :: bs => match Lead.ofByte b.toNat with
    | .char c => some c :: decodeFrom none bs
    | .more pending => decodeFrom (some pending) bs
    | .bad => none :: decodeFrom none bs
  | some pending, b :: bs =>
    if pending.low ≤ b.toNat ∧ b.toNat ≤ pending.high then
      let value := 64 * pending.value + b.toNat % 64
      if pending.left = 0 then some (Char.ofNat value) :: decodeFrom none bs
      else decodeFrom (some ⟨value, pending.left - 1, 0x80, 0xBF⟩) bs
    else match Lead.ofByte b.toNat with
      | .char c => none :: some c :: decodeFrom none bs
      | .more begun => none :: decodeFrom (some begun) bs
      | .bad => none :: none :: decodeFrom none bs

def decode (bytes : List UInt8) : List (Option Char) := decodeFrom none bytes

def render (glyphs : List (Option Char)) : String := String.ofList (glyphs.map (·.getD '\uFFFD'))

end NoiseFile.Text
