import LittleComputer.Proofs.Execution
import LittleComputer.Proofs.SignExtension

/-!
# Decoding

An instruction may be any integer, and decoding takes the word that the integer is congruent to.
All operands lie in the low twelve bits, where the two agree; only the opcode tells them apart.

* `Instruction.SameOperands`, `Instruction.sameOperands_decode` — **an integer and the word it is
  congruent to have the same operands.**
* `Instruction.SameOperands.perform`, `Instruction.SameOperands.execute` — instructions with the
  same operands do the same as each of the operations, and with the same opcode are carried out
  alike.
* `Instruction.extended_bounds`, `Instruction.opcode_eq_iff`, `Instruction.word_eq` — the ranges of
  the fields, when the opcodes agree too, and how a word is put together from its fields.
* `Instruction.decoded_decode` — what is lost by decoding: nothing but the opcodes that no
  instruction has.
-/

namespace LittleComputer

/-- The instruction set has the opcode with a given code. -/
def InstructionSet.has (instructions : InstructionSet) (code : Int) : Bool :=
  (Opcode.ofCode? code).any instructions

namespace Instruction

/-! ## Operands -/

/-- Two instructions have the same operands. -/
structure SameOperands (i j : Instruction) : Prop where
  dr : i.dr = j.dr
  sr : i.sr = j.sr
  nzp : i.nzp = j.nzp
  sr1 : i.sr1 = j.sr1
  baseR : i.baseR = j.baseR
  sr2 : i.sr2 = j.sr2
  immFlag : i.immFlag = j.immFlag
  longFlag : i.longFlag = j.longFlag
  imm5 : i.imm5 = j.imm5
  offset6 : i.offset6 = j.offset6
  pcOffset9 : i.pcOffset9 = j.pcOffset9
  pcOffset11 : i.pcOffset11 = j.pcOffset11
  trapVector : i.trapVector = j.trapVector

/-- Operands are fields within the low sixteen bits. -/
theorem SameOperands.of_field {i j : Instruction}
    (h : ∀ low width, low + width ≤ 16 → field i.word low width = field j.word low width) :
    SameOperands i j := by
  have hregister : ∀ low, low + 3 ≤ 16 → i.registerAt low = j.registerAt low :=
    fun low hlow => Fin.ext (h low 3 hlow)
  have hextended : ∀ width, width ≤ 16 → i.extended width = j.extended width := by
    intro width hwidth
    rw [extended, extended, h 0 width (by omega)]
  constructor
  case dr => exact hregister 9 (by decide)
  case sr => exact hregister 9 (by decide)
  case nzp => rw [Instruction.nzp, Instruction.nzp, h 9 3 (by decide)]
  case sr1 => exact hregister 6 (by decide)
  case baseR => exact hregister 6 (by decide)
  case sr2 => exact hregister 0 (by decide)
  case immFlag => rw [Instruction.immFlag, Instruction.immFlag, h 5 1 (by decide)]
  case longFlag => rw [Instruction.longFlag, Instruction.longFlag, h 11 1 (by decide)]
  case imm5 => exact hextended 5 (by decide)
  case offset6 => exact hextended 6 (by decide)
  case pcOffset9 => exact hextended 9 (by decide)
  case pcOffset11 => exact hextended 11 (by decide)
  case trapVector => exact h 0 8 (by decide)

/-- **An integer has the operands of the word that it is congruent to.** -/
theorem sameOperands_decode (w : Int) : SameOperands ⟨w⟩ (decode w) :=
  .of_field fun _ _ h => (field_emod w h).symm

/-! ## Carrying out -/

namespace SameOperands

variable {i j : Instruction}

/-- **Operations read nothing but operands.**  The two that are refused name themselves in their
fault. -/
theorem perform (h : SameOperands i j) {op : Opcode}
    (refused : op = .rti ∨ op = .res → i.mnemonic = j.mnemonic) :
    i.perform op = j.perform op := by
  have hoperand : i.operand = j.operand := by
    rw [operand, operand, h.immFlag, h.imm5, h.sr2]
  have hbase : ∀ offset, i.baseRelative offset = j.baseRelative offset := by
    intro offset
    rw [baseRelative, baseRelative, h.baseR]
  cases op with
  | add | and | not | br | jmp | lea | trap =>
      simp only [Instruction.perform, hoperand, h.dr, h.sr1, h.baseR, h.nzp, h.pcOffset9,
        h.trapVector]
  | jsr => simp only [Instruction.perform, h.longFlag, h.pcOffset11, hbase]
  | ld | ldi | ldr => simp only [Instruction.perform, h.dr, h.pcOffset9, h.offset6, hbase]
  | st | sti | str => simp only [Instruction.perform, h.sr, h.pcOffset9, h.offset6, hbase]
  | rti => simp only [Instruction.perform, refused (.inl rfl)]
  | res => simp only [Instruction.perform, refused (.inr rfl)]

/-- **With the same opcode, they are carried out alike.** -/
theorem execute (h : SameOperands i j) (opcode : i.opcode = j.opcode)
    (instructions : InstructionSet) : i.execute instructions = j.execute instructions := by
  have hmnemonic : i.mnemonic = j.mnemonic := by rw [mnemonic, mnemonic, opcode]
  rw [Instruction.execute, Instruction.execute, opcode]
  cases Opcode.ofCode? j.opcode with
  | none => rfl
  | some op => simp only [h.perform fun _ => hmnemonic]

end SameOperands

/-! ## Ranges -/

/-- Extended fields are words. -/
theorem extended_bounds (i : Instruction) {width : Nat} (short : width ≤ 16) :
    0 ≤ i.extended width ∧ i.extended width ≤ 0xFFFF := by
  have hfield : field i.word 0 width < 65536 :=
    Nat.lt_of_lt_of_le (field_lt i.word 0 width) (Nat.pow_le_pow_right (by decide) short)
  have hbounds : 0 ≤ i.extended width ∧ i.extended width < 65536 :=
    signExtend_bounds width (by omega) (by omega)
  omega

/-- Only sixteen opcodes can be told apart in a word. -/
theorem opcode_modEq (w : Int) :
    (⟨w⟩ : Instruction).opcode ≡ (decode w).opcode [ZMOD 16] := by
  simp only [Int.ModEq, opcode, decode, wordCount]
  omega

/-- The opcode of an integer is that of a word exactly if the integer is a word. -/
theorem opcode_eq_iff (w : Int) :
    (⟨w⟩ : Instruction).opcode = (decode w).opcode ↔ 0 ≤ w ∧ w ≤ 0xFFFF := by
  simp only [opcode, decode, wordCount]
  omega

/-- Where there is an opcode, it is one of the sixteen. -/
theorem opcode_eq_of_ofCode? {w : Int} {op : Opcode}
    (h : Opcode.ofCode? (⟨w⟩ : Instruction).opcode = some op) :
    (⟨w⟩ : Instruction).opcode = (decode w).opcode := by
  rw [opcode_eq_iff]
  unfold Opcode.ofCode? at h
  split at h
  · rename_i hnonneg
    obtain ⟨hlt, -⟩ := List.getElem?_eq_some_iff.1 h
    have hlength : Opcode.all.length = 16 := rfl
    simp only [opcode] at hnonneg hlt
    omega
  · cases h

/-! ## Putting a word together -/

/-- **A word is made of its fields.** -/
theorem word_eq (w : Int) :
    w % 65536 = (decode w).opcode * 4096 + ((decode w).dr : Nat) * 512 +
      ((decode w).sr1 : Nat) * 64 + (decode w).immFlag.toNat * 32 + (decode w).imm5 % 32 := by
  have hdr : (((decode w).dr : Nat) : Int) = w % 65536 / 2 ^ 9 % 2 ^ 3 := cast_field _ 9 3
  have hsr1 : (((decode w).sr1 : Nat) : Int) = w % 65536 / 2 ^ 6 % 2 ^ 3 := cast_field _ 6 3
  have himmFlag : ((decode w).immFlag.toNat : Int) = w % 65536 / 2 ^ 5 % 2 ^ 1 := by
    have hlt : field (w % 65536) 5 1 < 2 := field_lt _ 5 1
    have hflag : (decode w).immFlag = decide (field (w % 65536) 5 1 = 1) := rfl
    rw [hflag, ← cast_field]
    obtain hbit | hbit : field (w % 65536) 5 1 = 0 ∨ field (w % 65536) 5 1 = 1 := by omega
    · rw [hbit]
      rfl
    · rw [hbit]
      rfl
  have himm5 : (decode w).imm5 % 32 = w % 65536 / 2 ^ 0 % 2 ^ 5 := by
    have hlt : field (w % 65536) 0 5 < 2 ^ 5 := field_lt _ 0 5
    have hlow : signExtend (field (w % 65536) 0 5) 5 % 2 ^ 5 = field (w % 65536) 0 5 :=
      signExtend_emod (by decide) (by decide) (by omega) (by exact_mod_cast hlt)
    exact hlow.trans (cast_field _ 0 5)
  have hopcode : (decode w).opcode = w % 65536 / 4096 := rfl
  rw [hdr, hsr1, himmFlag, himm5, hopcode]
  omega

/-! ## Decoding -/

/-- `Decoded w i` : the instruction `i` is what the integer `w` is decoded to. -/
structure Decoded (w : Int) (i : Instruction) : Prop where
  /-- The operands are those of the integer. -/
  operands : SameOperands ⟨w⟩ i
  /-- Registers are named by three bits. -/
  registers : ∀ r ∈ [i.dr, i.sr, i.sr1, i.baseR, i.sr2], (r : Nat) ≤ 7
  /-- So are the flags that a branch asks for. -/
  flags : i.nzp.toNat ≤ 7
  /-- Extended fields are words. -/
  extended : ∀ v ∈ [i.imm5, i.offset6, i.pcOffset9, i.pcOffset11], 0 ≤ v ∧ v ≤ 0xFFFF
  /-- The opcodes agree in four bits. -/
  opcode : (⟨w⟩ : Instruction).opcode ≡ i.opcode [ZMOD 16]
  /-- They agree in all bits exactly if the integer is a word. -/
  opcode_eq : (⟨w⟩ : Instruction).opcode = i.opcode ↔ 0 ≤ w ∧ w ≤ 0xFFFF
  /-- Decoding the word again changes nothing. -/
  again : decode i.word = i
  /-- The residue can be put together from the opcode and four of the operands. -/
  word : w % 65536 = i.opcode * 4096 + (i.dr : Nat) * 512 + (i.sr1 : Nat) * 64 +
    i.immFlag.toNat * 32 + i.imm5 % 32
  /-- Performed as an operation that the machine does not refuse, both do the same. -/
  performed : ∀ op, op ≠ .rti → op ≠ .res → (⟨w⟩ : Instruction).perform op = i.perform op
  /-- An integer whose opcode the instruction set lacks is a fault and changes nothing. -/
  lacking : ∀ instructions : InstructionSet, instructions.has (⟨w⟩ : Instruction).opcode = false →
    ∀ m, (⟨w⟩ : Instruction).execute instructions m =
      .error (.fault (.badOpcode (⟨w⟩ : Instruction).opcode)) m
  /-- Any other is carried out as its word is. -/
  executed : ∀ instructions : InstructionSet, instructions.has (⟨w⟩ : Instruction).opcode = true →
    (⟨w⟩ : Instruction).execute instructions = i.execute instructions

/-- **Decoding an integer loses nothing that the machine can carry out.** -/
theorem decoded_decode (w : Int) : Decoded w (decode w) := by
  have hoperands := sameOperands_decode w
  constructor
  case operands => exact hoperands
  case registers => exact fun r _ => Nat.le_of_lt_succ r.isLt
  case flags => exact Nat.le_of_lt_succ (decode w).nzp.isLt
  case extended =>
    intro v hv
    obtain ⟨width, hwidth, rfl⟩ :=
      List.mem_map.1 (show v ∈ [5, 6, 9, 11].map (decode w).extended from hv)
    have hshort : ∀ n ∈ [5, 6, 9, 11], n ≤ 16 := by decide
    exact extended_bounds _ (hshort width hwidth)
  case opcode => exact opcode_modEq w
  case opcode_eq => exact opcode_eq_iff w
  case again => exact decode_decode w
  case word => exact word_eq w
  case performed =>
    intro op hrti hres
    exact hoperands.perform fun h => absurd h (not_or.2 ⟨hrti, hres⟩)
  case lacking =>
    intro instructions hlacks m
    unfold InstructionSet.has at hlacks
    unfold execute
    cases hop : Opcode.ofCode? (⟨w⟩ : Instruction).opcode with
    | none => rfl
    | some op =>
        rw [hop, Option.any_some] at hlacks
        simp only [hlacks]
        rfl
  case executed =>
    intro instructions hhas
    unfold InstructionSet.has at hhas
    cases hop : Opcode.ofCode? (⟨w⟩ : Instruction).opcode with
    | none =>
        rw [hop] at hhas
        cases hhas
    | some op => exact hoperands.execute (opcode_eq_of_ofCode? hop) instructions

end Instruction

end LittleComputer
