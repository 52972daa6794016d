import LittleComputer.Condition

/-!
# The processor

Eight general registers, the program counter, the condition flags, the word of the instruction in
hand and the status.  Programs name registers by three bits, so their accesses cannot miss.
-/

namespace LittleComputer

/-- The name of a general register. -/
abbrev Register := Fin 8

/-- Whether the machine runs. -/
inductive Status where
  /-- Instructions are being executed. -/
  | running
  /-- The program ended by itself. -/
  | halted
  /-- The program was stopped by a fault. -/
  | faulted
  deriving DecidableEq, Repr

namespace Status

/-- The name of a status. -/
def name : Status → String
  | running => "running"
  | halted => "halted"
  | faulted => "faulted"

/-- The status with a given name. -/
def ofName? (name : String) : Option Status :=
  [running, halted, faulted].find? (·.name == name)

end Status

/-- The register that the trap routines use. -/
def Register.r0 : Register := ⟨0, by decide⟩

/-- The register that keeps the return address of a subroutine. -/
def Register.r7 : Register := ⟨7, by decide⟩

/-- Where programs start unless told otherwise. -/
def defaultStart : Int := 0x3000

/-- The state of the processor. -/
structure Processor where
  /-- The general registers, `R0` first. -/
  registers : Vector Word 8
  /-- The program counter. -/
  pc : Word
  /-- The condition flags. -/
  cond : Condition
  /-- The instruction in hand, if one has been fetched. -/
  ir : Option Int
  /-- Whether the machine runs. -/
  status : Status
  deriving DecidableEq, Repr

namespace Processor

/-- The processor after a reset: all registers zero, the zero flag set, running from `start`. -/
def reset (start : Int) : Processor where
  registers := Vector.replicate 8 0
  pc := Word.ofInt start
  cond := .zero
  ir := none
  status := .running

/-- Moves the program counter, modulo the size of the address space. -/
def jump (p : Processor) (target : Int) : Processor := { p with pc := Word.ofInt target }

/-- The value of a register. -/
def register (p : Processor) (r : Register) : Word := p.registers[r]

/-- Writes a register. -/
def setRegister (p : Processor) (r : Register) (w : Word) : Processor :=
  { p with registers := p.registers.set r w }

/-- Sets the flags to the sign class of a register's value. -/
def setFlags (p : Processor) (r : Register) : Processor :=
  { p with cond := .ofWord (p.register r) }

/-- Whether the machine runs. -/
def running (p : Processor) : Bool := p.status == .running

/-! ## Reading back what was written -/

theorem register_setRegister (p : Processor) (r s : Register) (w : Word) :
    (p.setRegister r w).register s = if r = s then w else p.register s := by
  simp [register, setRegister, Vector.getElem_set, Fin.ext_iff]

end Processor

end LittleComputer
