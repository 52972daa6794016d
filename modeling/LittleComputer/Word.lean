/-!
# Words, bytes and bit fields

The machine computes on 16-bit words.  Addresses, images and options, however, arrive as integers
of any size, and a word stands for its residue class: `Word.ofInt` takes the residue.  `field` reads
a range of bits of an integer, and `signExtend` widens such a field to a word.

Integers are read in two's complement with infinitely many sign bits, so a field of a negative
integer is the field of every word congruent to it.
-/

namespace LittleComputer

/-- A machine word: sixteen bits. -/
abbrev Word := BitVec 16

/-- A byte of an image or of the console. -/
abbrev Byte := BitVec 8

/-- The residue of an integer modulo `2 ^ 16`. -/
def Word.ofInt (value : Int) : Word := BitVec.ofInt 16 value

/-- The address space, and the range of a word, in cells. -/
def wordCount : Nat := 65536

/-- The bits `low, …, low + width - 1` of an integer, read as a natural number. -/
def field (value : Int) (low width : Nat) : Nat :=
  (value / (Nat.pow 2 low : Nat) % (Nat.pow 2 width : Nat)).toNat

/-- The word whose bits from `width` on are set and whose bits below are clear. -/
def highOnes (width : Nat) : Word := BitVec.allOnes 16 <<< min width 16

/-- Sets in `value` every bit that is set in `mask`; the bits from 16 on stay as they are. -/
def setBits (value : Int) (mask : Word) : Int :=
  value - value % (wordCount : Nat) + (Word.ofInt value ||| mask).toNat

/-- Sign extension of a `width`-bit field to a word: where bit `width - 1` is set, the bits
`width, …, 15` are set too.  No other bit changes, so the result of extending a field is a
non-negative number below `2 ^ 16`, not a signed one, and a field as wide as a word stays as it
is. -/
def signExtend (value : Int) (width : Nat) : Int :=
  if width < 16 ∧ field value (width - 1) 1 = 1 then setBits value (highOnes width) else value

/-- Why a field cannot be extended. -/
inductive FieldError where
  /-- A field without bits has no sign bit. -/
  | noSignBit
  deriving DecidableEq, Repr

/-- The message for a field that cannot be extended. -/
def FieldError.message : FieldError → String
  | noSignBit => "negative shift count"

/-- Sign extension for a width that may be any integer: it must be at least one. -/
def signExtend? (value width : Int) : Except FieldError Int :=
  if 1 ≤ width then .ok (signExtend value width.toNat) else .error .noSignBit

/-! ## Residues -/

theorem Word.ofInt_toNat (w : Word) : Word.ofInt w.toNat = w := by
  simp [Word.ofInt]

theorem Word.toNat_ofInt (value : Int) : (Word.ofInt value).toNat = (value % 65536).toNat := by
  simp [Word.ofInt, BitVec.toNat_ofInt]

theorem Word.ofInt_emod (value : Int) : Word.ofInt (value % 65536) = Word.ofInt value := by
  apply BitVec.eq_of_toNat_eq
  simp [Word.toNat_ofInt]

theorem Word.ofInt_eq_iff (value : Int) (w : Word) :
    Word.ofInt value = w ↔ value % 65536 = w.toNat := by
  rw [← BitVec.toNat_inj, Word.toNat_ofInt]
  omega

theorem Word.cast_toNat_ofInt (value : Int) :
    ((Word.ofInt value).toNat : Int) = value % 65536 :=
  ((Word.ofInt_eq_iff value _).1 rfl).symm

theorem Word.ofInt_add (a b : Int) : Word.ofInt (a + b) = Word.ofInt a + Word.ofInt b := by
  simp [Word.ofInt, BitVec.ofInt_add]

theorem Word.ofInt_add_one (a : Int) : Word.ofInt (a + 1) = Word.ofInt a + 1 :=
  Word.ofInt_add a 1

/-! ## Fields -/

theorem field_lt (value : Int) (low width : Nat) :
    field value low width < Nat.pow 2 width := by
  have positive : 0 < Nat.pow 2 width := Nat.two_pow_pos width
  have nonneg := Int.emod_nonneg (value / (Nat.pow 2 low : Nat))
    (b := (Nat.pow 2 width : Nat)) (by omega)
  have less := Int.emod_lt_of_pos (value / (Nat.pow 2 low : Nat))
    (b := (Nat.pow 2 width : Nat)) (by omega)
  unfold field
  omega

example : signExtend 0x10 5 = 0xFFF0 := by decide
example : signExtend (-1) 5 = -1 := by decide
example : signExtend 0x30 5 = 0xFFF0 := by decide
example : signExtend (-1) 1000000 = -1 := by decide

end LittleComputer
