import LittleComputer.Machine.Execute
import LittleComputer.Plain.Memory
import LittleComputer.Port

/-!
# The machine on plain integers

The machine as it works on integers: executors and trap routines hand integers around that nobody
has reduced, and registers, memory and the port take the low bits where they are written.  An access
may be refused and a number may be none of what is asked for, so an action can break off for reasons
that are no faults of the program (`Break`).

The string routines are loops: look at a cell, end if it is zero, write what it stands for and go on
to the next address, which only counts up.  Since memory repeats itself after one round, a loop that
has gone round finds no zero ever.
-/

namespace LittleComputer.Plain

/-- The whole state of the computer. -/
structure Machine (σ : Type) where
  /-- Registers, program counter and flags. -/
  processor : Processor
  /-- The address space. -/
  memory : Memory
  /-- Where characters come from and go to. -/
  port : Port σ

/-- An action on the machine that gives an `α` or breaks off. -/
abbrev Exec (σ : Type) := EStateM Break (Machine σ)

variable {σ : Type}

namespace Exec

/-! ## Registers and cells -/

/-- Looks at the processor. -/
def look {α : Type} (f : Processor → α) : Exec σ α := fun m => .ok (f m.processor) m

/-- Changes the processor. -/
def onProcessor (f : Processor → Processor) : Exec σ Unit :=
  modify fun m => { m with processor := f m.processor }

/-- Reads a register. -/
def register (index : Int) : Exec σ Int := fun m =>
  match m.processor.get index with
  | .ok value => .ok value m
  | .error e => .error (.index e) m

/-- Writes a register and leaves the flags alone. -/
def setRegister (index value : Int) : Exec σ Unit := fun ⟨processor, memory, port⟩ =>
  match processor.set index value with
  | (.ok (), processor) => .ok () ⟨processor, memory, port⟩
  | (.error e, processor) => .error (.index e) ⟨processor, memory, port⟩

/-- Sets the flags from a register. -/
def updateFlags (index : Int) : Exec σ Unit := fun ⟨processor, memory, port⟩ =>
  match processor.updateFlags index with
  | (.ok (), processor) => .ok () ⟨processor, memory, port⟩
  | (.error e, processor) => .error (.index e) ⟨processor, memory, port⟩

/-- Writes the result of an operation: the register, and then the flags from it. -/
def setResult (index value : Int) : Exec σ Unit := do
  setRegister index value
  updateFlags index

/-- Looks at the cell with an index. -/
def item (index : Int) : Exec σ Int := fun m =>
  match m.memory.cells.item index with
  | .ok value => .ok value m
  | .error e => .error (.index e) m

/-- Replaces the cell with an index. -/
def put (index value : Int) : Exec σ Unit := fun ⟨processor, ⟨cells⟩, port⟩ =>
  match cells.put index value with
  | (.ok (), cells) => .ok () ⟨processor, ⟨cells⟩, port⟩
  | (.error e, cells) => .error (.index e) ⟨processor, ⟨cells⟩, port⟩

/-- Looks at the cell at an address. -/
def peek (address : Int) : Exec σ Int := item (wrap address)

/-- Writes a word to the cell at an address. -/
def store (address word : Int) : Exec σ Unit := put (wrap address) (wrap word)

/-- Stops the program with a fault. -/
def fail {α : Type} (cause : Fault) : Exec σ α := throw (.stop (.fault cause))

/-! ## The port -/

/-- Forgets the last codes. -/
def resetCodes : Exec σ Unit := modify fun m => { m with port := m.port.resetCodes }

variable [Provider σ]

/-- Reads a character. -/
def readChar : Exec σ Nat := fun ⟨processor, memory, port⟩ =>
  match port.readChar with
  | (.ok code, port) => .ok code ⟨processor, memory, port⟩
  | (.error e, port) => .error e ⟨processor, memory, port⟩

/-- Writes a character. -/
def writeChar (code : Int) : Exec σ Unit := fun ⟨processor, memory, port⟩ =>
  match port.writeChar code with
  | (.ok (), port) => .ok () ⟨processor, memory, port⟩
  | (.error e, port) => .error e ⟨processor, memory, port⟩

/-- Pushes out the output. -/
def flush : Exec σ Unit := modify fun m => { m with port := m.port.flush }

/-- Reads the word at an address.  A read of the keyboard status register marks the keyboard ready
and takes a character into the keyboard data register first. -/
def load (address : Int) : Exec σ Int := do
  if wrap address = 0xFE00 then
    put 0xFE00 0x8000
    put 0xFE02 (wrap (← readChar))
  item (wrap address)

end Exec

open Plain.Exec

/-! ## Trap routines -/

section Traps

variable [Provider σ]

/-- Goes through memory from an address on and writes the string that begins there, each word by
`each`. -/
def writeString (each : Int → Exec σ Unit) : (fuel : Nat) → (address : Int) → Exec σ Unit
  | 0, _ => throw (.stop .endless)
  | fuel + 1, address => do
    let word ← peek address
    if word = 0 then return ()
    each word
    writeString each fuel (address + 1)

/-- Writes the characters that are packed into a word: the low byte, then the high byte unless it is
zero. -/
def writePacked (word : Int) : Exec σ Unit := do
  writeChar (word % 256)
  if word / 256 ≠ 0 then writeChar (word / 256)

/-- Runs a trap routine. -/
def runTrap : Trap → Exec σ Unit
  | .getc => do
    setRegister 0 (← readChar)
    flush
  | .out => do
    writeChar (← register 0)
  | .puts => do
    writeString writeChar wordCount (← register 0)
    flush
  | .readEcho => do
    let code ← readChar
    writeChar code
    setRegister 0 code
  | .putsp => do
    writeString writePacked wordCount (← register 0)
    flush
  | .halt => do
    flush
    onProcessor fun p => { p with status := .halted }

end Traps

/-! ## Instructions -/

namespace Exec

/-- The register that three bits of an instruction name, as an index. -/
def index (i : Instruction) (low : Nat) : Int := field i.word low 3

/-- The low bits of an instruction, sign-extended to a word. -/
def extended (i : Instruction) (width : Int) : Exec σ Int :=
  match signExtend? (field i.word 0 width.toNat) width with
  | .ok value => return value
  | .error e => throw (.value (.width e))

/-- The second operand of an arithmetic instruction. -/
def operand (i : Instruction) : Exec σ Int :=
  if i.immFlag then extended i 5 else register (index i 0)

/-- The address at an offset from the program counter. -/
def pcRelative (i : Instruction) (width : Int) : Exec σ Int := do
  return (← look (·.pc)) + (← extended i width)

/-- The address at an offset from the base register. -/
def baseRelative (i : Instruction) : Exec σ Int := do
  return (← register (index i 6)) + (← extended i 6)

/-- What an instruction does, by its opcode: the target if it jumps. -/
def perform [Provider σ] (i : Instruction) : Opcode → Exec σ (Option Int)
  | .add => do
    let b ← operand i
    let a ← register (index i 6)
    setResult (index i 9) (a + b)
    return none
  | .and => do
    let b ← operand i
    let a ← register (index i 6)
    setResult (index i 9) (common a b)
    return none
  | .not => do
    let a ← register (index i 6)
    setResult (index i 9) (-a - 1)
    return none
  | .br => do
    if i.nzp &&& (← look (·.cond)) = 0 then return none
    return some (← pcRelative i 9)
  | .jmp => do
    return some (← register (index i 6))
  | .jsr => do
    let target ← if i.longFlag then pcRelative i 11 else register (index i 6)
    setRegister 7 (← look (·.pc))
    return some target
  | .ld => do
    let w ← load (← pcRelative i 9)
    setResult (index i 9) w
    return none
  | .ldi => do
    let pointer ← load (← pcRelative i 9)
    let w ← load pointer
    setResult (index i 9) w
    return none
  | .ldr => do
    let w ← load (← baseRelative i)
    setResult (index i 9) w
    return none
  | .lea => do
    setResult (index i 9) (← pcRelative i 9)
    return none
  | .st => do
    store (← pcRelative i 9) (← register (index i 9))
    return none
  | .sti => do
    let pointer ← load (← pcRelative i 9)
    store pointer (← register (index i 9))
    return none
  | .str => do
    store (← baseRelative i) (← register (index i 9))
    return none
  | .rti | .res => fail (.unusedOpcode i.mnemonic)
  | .trap => do
    match Trap.ofVector? i.trapVector with
    | some routine => runTrap routine
    | none => fail (.unknownTrapVector i.trapVector)
    return none

/-- Carries out an instruction, if the instruction set has its opcode. -/
def execute [Provider σ] (instructions : InstructionSet) (i : Instruction) :
    Exec σ (Option Int) :=
  match Opcode.ofCode? i.opcode with
  | some op => if instructions op then perform i op else fail (.badOpcode i.opcode)
  | none => fail (.badOpcode i.opcode)

/-- Fetches the word at the program counter and moves the counter past it.  Until the word is there,
the processor has no instruction in hand. -/
def fetch [Provider σ] : Exec σ Int := do
  let address ← look (·.pc)
  onProcessor fun p => { p with ir := none }
  let word ← load address
  onProcessor fun p => { p.jump (p.pc + 1) with ir := some word }
  return word

/-- One turn of the machine: the word that was executed. -/
def cycle [Provider σ] (instructions : InstructionSet) : Exec σ Int := do
  let word ← fetch
  resetCodes
  if let some target := ← execute instructions (decode word) then
    onProcessor (·.jump target)
  return word

end Exec

end LittleComputer.Plain
