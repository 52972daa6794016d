import LittleComputer.Instruction

/-!
# The fields of a fetched word

`Instruction` reads its fields off an integer, by division and remainder, and widens the short ones
with ones or zeros.  Of a fetched word these fields are slices of its bits:

* `field_toNat` — a field of a word is a slice of it.
* `Word.ofInt_signExtend` — widening a field by the rule of `signExtend` gives, modulo `2 ^ 16`, the
  field read as a *signed* number.
* `opcode_decode`, `registerAt_decode`, `nzp_decode`, `immFlag_decode`, `longFlag_decode`,
  `trapVector_decode`, `ofInt_extended_decode` — the fields of a decoded word.
-/

namespace LittleComputer

/-- A field of a word is a slice of its bits. -/
theorem field_toNat (w : Word) (low width : Nat) :
    field w.toNat low width = (w.extractLsb' low width).toNat := by
  simp only [field, Nat.pow_eq, BitVec.extractLsb'_toNat, Nat.shiftRight_eq_div_pow]
  norm_cast

/-! ## Sign extension -/

/-- Setting bits above commutes with taking the residue. -/
theorem Word.ofInt_setBits (value : Int) (mask : Word) :
    Word.ofInt (setBits value mask) = Word.ofInt value ||| mask := by
  have hdiv : (65536 : Int) * (value / 65536) = value - value % 65536 := by
    have := Int.mul_ediv_add_emod value 65536
    omega
  have hzero : Word.ofInt (65536 * (value / 65536)) = 0 := by
    rw [← Word.ofInt_emod, Int.mul_emod_right]
    rfl
  have hset : setBits value mask
      = 65536 * (value / 65536) + (Word.ofInt value ||| mask).toNat := by
    rw [hdiv]
    rfl
  rw [hset, Word.ofInt_add, hzero, Word.ofInt_toNat]
  simp

/-- The sign bit of a field, as `field` reads it. -/
theorem field_msb {width : Nat} (v : BitVec width) (pos : 0 < width) :
    field v.toNat (width - 1) 1 = 1 ↔ v.msb = true := by
  have hlt := v.isLt
  have hpow : 2 ^ width = 2 * 2 ^ (width - 1) := by
    rw [← Nat.pow_succ']
    congr 1
    omega
  have hfield : field v.toNat (width - 1) 1 = v.toNat / 2 ^ (width - 1) % 2 := by
    simp only [field, Nat.pow_eq]
    norm_cast
  rw [hfield, BitVec.msb_eq_decide, decide_eq_true_eq]
  have hdiv : v.toNat / 2 ^ (width - 1) < 2 := by
    rw [Nat.div_lt_iff_lt_mul (Nat.two_pow_pos _)]
    omega
  rw [Nat.mod_eq_of_lt hdiv]
  constructor
  · intro h
    have := Nat.div_mul_le_self v.toNat (2 ^ (width - 1))
    rw [h] at this
    omega
  · intro h
    have : 1 ≤ v.toNat / 2 ^ (width - 1) := by
      rw [Nat.le_div_iff_mul_le (Nat.two_pow_pos _)]
      omega
    omega

/-- Bit `i` of the mask that widens a field. -/
theorem getLsbD_highOnes {width : Nat} (h : width ≤ 16) (i : Nat) :
    (highOnes width).getLsbD i = (decide (i < 16) && decide (width ≤ i)) := by
  rw [highOnes, Nat.min_eq_left h, BitVec.getLsbD_shiftLeft, BitVec.getLsbD_allOnes]
  by_cases hi : width ≤ i
  · have hlt : ¬ i < width := by omega
    have hsub : i < 16 → i - width < 16 := by omega
    by_cases h16 : i < 16 <;> simp [hi, hlt, h16, hsub]
  · have hlt : i < width := by omega
    simp [hi, hlt]

/-- **Sign extension is signed.**  A field that is padded with ones where its sign bit is set stands,
modulo `2 ^ 16`, for the field read as a signed number. -/
theorem Word.ofInt_signExtend {width : Nat} (v : BitVec width) (pos : 0 < width)
    (short : width < 16) : Word.ofInt (signExtend v.toNat width) = v.signExtend 16 := by
  have hpad : Word.ofInt v.toNat = v.setWidth 16 := by
    apply BitVec.eq_of_toNat_eq
    rw [Word.toNat_ofInt, BitVec.toNat_setWidth]
    omega
  apply BitVec.eq_of_getLsbD_eq
  intro i hi
  rw [BitVec.getLsbD_signExtend]
  by_cases hm : v.msb = true
  · rw [signExtend, if_pos ⟨short, (field_msb v pos).2 hm⟩, Word.ofInt_setBits, hpad,
      BitVec.getLsbD_or, BitVec.getLsbD_setWidth, getLsbD_highOnes (by omega)]
    by_cases hw : i < width
    · have hle : ¬ width ≤ i := by omega
      simp [hi, hw, hle]
    · have hle : width ≤ i := by omega
      simp [hi, hw, hle, hm]
  · have hpos : ¬ (width < 16 ∧ field v.toNat (width - 1) 1 = 1) := by
      rintro ⟨-, h⟩
      exact hm ((field_msb v pos).1 h)
    rw [signExtend, if_neg hpos, hpad, BitVec.getLsbD_setWidth]
    by_cases hw : i < width
    · simp [hi, hw]
    · simp [hi, hw, hm, BitVec.getLsbD_of_ge v i (by omega)]

/-! ## The fields of a decoded word -/

namespace Instruction

variable (w : Word)

/-- Decoding keeps a word as it is. -/
theorem word_decode : (decode w.toNat).word = w.toNat := by
  have := w.isLt
  simp only [decode, wordCount]
  omega

/-- The opcode is the top four bits. -/
theorem opcode_decode : (decode w.toNat).opcode = (w.extractLsb' 12 4).toNat := by
  rw [opcode, word_decode, BitVec.extractLsb'_toNat, Nat.shiftRight_eq_div_pow]
  have := w.isLt
  omega

/-- A register field is three bits. -/
theorem registerAt_decode (low : Nat) :
    (decode w.toNat).registerAt low = (w.extractLsb' low 3).toFin := by
  apply Fin.ext
  simp only [registerAt, word_decode, field_toNat]
  rfl

/-- The flags that a branch asks for are three bits. -/
theorem nzp_decode : (decode w.toNat).nzp = w.extractLsb' 9 3 := by
  rw [nzp, word_decode, field_toNat, BitVec.ofNat_toNat, BitVec.setWidth_eq]

/-- Bit 5 selects the immediate operand. -/
theorem immFlag_decode : (decode w.toNat).immFlag = w.getLsbD 5 := by
  rw [immFlag, word_decode, field_toNat, BitVec.extractLsb'_toNat, Nat.shiftRight_eq_div_pow]
  simp [BitVec.getLsbD, Nat.testBit_eq_decide_div_mod_eq]

/-- Bit 11 selects the long jump. -/
theorem longFlag_decode : (decode w.toNat).longFlag = w.getLsbD 11 := by
  rw [longFlag, word_decode, field_toNat, BitVec.extractLsb'_toNat, Nat.shiftRight_eq_div_pow]
  simp [BitVec.getLsbD, Nat.testBit_eq_decide_div_mod_eq]

/-- The trap vector is the low byte. -/
theorem trapVector_decode : (decode w.toNat).trapVector = (w.extractLsb' 0 8).toNat := by
  rw [trapVector, word_decode, field_toNat]

/-- An immediate or an offset stands for its field read as a signed number. -/
theorem ofInt_extended_decode {width : Nat} (pos : 0 < width) (short : width < 16) :
    Word.ofInt ((decode w.toNat).extended width) = (w.extractLsb' 0 width).signExtend 16 := by
  rw [extended, word_decode, field_toNat, Word.ofInt_signExtend _ pos short]

end Instruction

end LittleComputer
