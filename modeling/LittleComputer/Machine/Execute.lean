import LittleComputer.Machine.Trap

/-!
# Executing instructions

`Instruction.execute` carries out one instruction and gives the address it jumps to, if it jumps.
The target is not yet reduced to a word: it is the sum of the program counter, which has passed the
instruction already, and an offset.  `Exec.cycle` is one turn of the machine: fetch, decode,
execute, jump.
-/

namespace LittleComputer

/-- Which opcodes the machine implements. -/
abbrev InstructionSet := Opcode → Bool

namespace InstructionSet

/-- All sixteen opcodes. -/
def complete : InstructionSet := fun _ => true

/-- All opcodes but those with the given codes. -/
def without (codes : List Int) : InstructionSet :=
  fun op => !(codes.filterMap Opcode.ofCode?).contains op

end InstructionSet

open Exec

namespace Instruction

/-- The second operand of an arithmetic instruction. -/
def operand (i : Instruction) : Exec Word :=
  if i.immFlag then return Word.ofInt i.imm5 else register i.sr2

/-- The address at an offset from the program counter. -/
def pcRelative (offset : Int) : Exec Int := return (← pc).toNat + offset

/-- The address at an offset from the base register. -/
def baseRelative (i : Instruction) (offset : Int) : Exec Int :=
  return (← register i.baseR).toNat + offset

/-- What an instruction does, by its opcode: the target if it jumps. -/
def perform (i : Instruction) : Opcode → Exec (Option Int)
  | .add => do
    let b ← i.operand
    let a ← register i.sr1
    setResult i.dr (a + b)
    return none
  | .and => do
    let b ← i.operand
    let a ← register i.sr1
    setResult i.dr (a &&& b)
    return none
  | .not => do
    let a ← register i.sr1
    setResult i.dr (~~~a)
    return none
  | .br => do
    if i.nzp &&& (← condition) = 0 then return none
    return some (← pcRelative i.pcOffset9)
  | .jmp => do
    return some (← register i.baseR).toNat
  | .jsr => do
    let target ← if i.longFlag then pcRelative i.pcOffset11 else i.baseRelative 0
    setRegister .r7 (← pc)
    return some target
  | .ld => do
    let w ← load (← pcRelative i.pcOffset9)
    setResult i.dr w
    return none
  | .ldi => do
    let pointer ← load (← pcRelative i.pcOffset9)
    let w ← load pointer.toNat
    setResult i.dr w
    return none
  | .ldr => do
    let w ← load (← i.baseRelative i.offset6)
    setResult i.dr w
    return none
  | .lea => do
    setResult i.dr (Word.ofInt (← pcRelative i.pcOffset9))
    return none
  | .st => do
    store (← pcRelative i.pcOffset9) (← register i.sr)
    return none
  | .sti => do
    let pointer ← load (← pcRelative i.pcOffset9)
    store pointer.toNat (← register i.sr)
    return none
  | .str => do
    store (← i.baseRelative i.offset6) (← register i.sr)
    return none
  | .rti | .res => fail (.unusedOpcode i.mnemonic)
  | .trap => do
    match Trap.ofVector? i.trapVector with
    | some routine => routine.run
    | none => fail (.unknownTrapVector i.trapVector)
    return none

/-- Carries out an instruction, if the instruction set has its opcode. -/
def execute (instructions : InstructionSet) (i : Instruction) : Exec (Option Int) :=
  match Opcode.ofCode? i.opcode with
  | some op => if instructions op then i.perform op else fail (.badOpcode i.opcode)
  | none => fail (.badOpcode i.opcode)

end Instruction

namespace Exec

/-- Carries out an instruction and jumps where it says; gives the target. -/
def executeAndJump (instructions : InstructionSet) (i : Instruction) : Exec (Option Int) := do
  let target ← i.execute instructions
  if let some target := target then
    onProcessor (·.jump target)
  return target

/-- Fetches the word at the program counter and moves the counter past it.  Until the word is there,
the processor has no instruction in hand. -/
def fetch : Exec Word := do
  let address ← pc
  onProcessor fun p => { p with ir := none }
  let word ← load address.toNat
  onProcessor fun p => { p.jump (address.toNat + 1) with ir := some word.toNat }
  return word

/-- One turn of the machine: the word that was executed.  The terminal's codes are those of this
turn's execution, so a character taken by the fetch itself leaves none. -/
def cycle (instructions : InstructionSet) : Exec Word := do
  let word ← fetch
  onTerminal Terminal.resetCodes
  let _ ← executeAndJump instructions (decode word.toNat)
  return word

end Exec

end LittleComputer
