import LittleComputer.Word

/-!
# Bytes as text

Output bytes are shown as the characters with the same codes, so every byte is one character and
no two bytes share one.
-/

namespace LittleComputer.Text

/-- The character whose code is a byte. -/
def charOfByte (byte : Byte) : Char := Char.ofNat byte.toNat

/-- Bytes as the text of the characters with these codes. -/
def ofBytes (bytes : List Byte) : String := String.ofList (bytes.map charOfByte)

theorem toNat_charOfByte (byte : Byte) : (charOfByte byte).toNat = byte.toNat := by
  have valid : byte.toNat.isValidChar := by
    have := byte.isLt
    unfold Nat.isValidChar
    omega
  unfold charOfByte Char.ofNat
  rw [dif_pos valid]
  rfl

theorem charOfByte_inj {a b : Byte} (h : charOfByte a = charOfByte b) : a = b := by
  apply BitVec.eq_of_toNat_eq
  rw [← toNat_charOfByte, ← toNat_charOfByte, h]

end LittleComputer.Text
