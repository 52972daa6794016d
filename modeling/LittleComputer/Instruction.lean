import LittleComputer.Fault
import LittleComputer.Processor

/-!
# Instructions

An instruction is a word together with the views of it that its operands take: the fields overlap,
and which of them mean something depends on the opcode.  The word may be any integer.  All operand
fields lie in its low twelve bits, so only the opcode tells an integer from the word it is
congruent to; `decode` takes that word.
-/

namespace LittleComputer

/-- The sixteen opcodes, in the order of their codes. -/
inductive Opcode where
  | br | add | ld | st | jsr | and | ldr | str
  | rti | not | ldi | sti | jmp | res | lea | trap
  deriving DecidableEq, Repr

namespace Opcode

/-- All opcodes, each at the position of its code. -/
def all : List Opcode :=
  [br, add, ld, st, jsr, and, ldr, str, rti, not, ldi, sti, jmp, res, lea, trap]

/-- The opcode with a given code. -/
def ofCode? (code : Int) : Option Opcode :=
  if 0 ≤ code then all[code.toNat]? else none

/-- The name of an opcode in assembly language. -/
def mnemonic : Opcode → String
  | br => "BR" | add => "ADD" | ld => "LD" | st => "ST"
  | jsr => "JSR" | and => "AND" | ldr => "LDR" | str => "STR"
  | rti => "RTI" | not => "NOT" | ldi => "LDI" | sti => "STI"
  | jmp => "JMP" | res => "RES" | lea => "LEA" | trap => "TRAP"

end Opcode

/-- An instruction word. -/
structure Instruction where
  word : Int
  deriving DecidableEq, Repr

/-- The instruction that a fetched word stands for: integers are taken modulo `2 ^ 16`. -/
def decode (word : Int) : Instruction := ⟨word % (wordCount : Nat)⟩

namespace Instruction

/-- The bits above the operands; outside 0 to 15 where the word is not a 16-bit one. -/
def opcode (i : Instruction) : Int := i.word / 4096

/-- The register named by the three bits from `low` on. -/
def registerAt (i : Instruction) (low : Nat) : Register := ⟨field i.word low 3, field_lt ..⟩

/-- Destination register. -/
def dr (i : Instruction) : Register := i.registerAt 9

/-- Source register of a store. -/
def sr (i : Instruction) : Register := i.registerAt 9

/-- The flags that a branch asks for. -/
def nzp (i : Instruction) : Condition := BitVec.ofNat 3 (field i.word 9 3)

/-- First source register. -/
def sr1 (i : Instruction) : Register := i.registerAt 6

/-- Base register of an address. -/
def baseR (i : Instruction) : Register := i.registerAt 6

/-- Second source register. -/
def sr2 (i : Instruction) : Register := i.registerAt 0

/-- Whether the second operand is the immediate one. -/
def immFlag (i : Instruction) : Bool := field i.word 5 1 = 1

/-- Whether a subroutine jump is relative to the program counter. -/
def longFlag (i : Instruction) : Bool := field i.word 11 1 = 1

/-- The low `width` bits, sign-extended to a word. -/
def extended (i : Instruction) (width : Nat) : Int := signExtend (field i.word 0 width) width

/-- Immediate operand. -/
def imm5 (i : Instruction) : Int := i.extended 5

/-- Offset from a base register. -/
def offset6 (i : Instruction) : Int := i.extended 6

/-- Offset from the program counter. -/
def pcOffset9 (i : Instruction) : Int := i.extended 9

/-- Long offset from the program counter. -/
def pcOffset11 (i : Instruction) : Int := i.extended 11

/-- The vector of a trap. -/
def trapVector (i : Instruction) : Nat := field i.word 0 8

/-- The opcode's name, or its code in hexadecimal where it has none. -/
def mnemonic (i : Instruction) : String :=
  match Opcode.ofCode? i.opcode with
  | some op => op.mnemonic
  | none => "0x" ++ Text.signedHex i.opcode

end Instruction

/-! ## Words and instructions -/

theorem decode_decode (word : Int) : decode (decode word).word = decode word := by
  simp [decode, wordCount]

example : (decode 0x1236).mnemonic = "ADD" := by cbv
example : (decode 0x1236).imm5 = 0xFFF6 := by decide
example : Instruction.mnemonic ⟨-1⟩ = "0x-1" := by cbv

end LittleComputer
