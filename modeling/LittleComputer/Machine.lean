import LittleComputer.Instruction
import LittleComputer.Memory

/-!
# The machine

A processor, its memory and the terminal that its keyboard and its output belong to.  Instructions
are described as actions on the machine (`Exec`), written with the small set of primitives below.
An action that stops leaves the machine as it was at that moment.
-/

namespace LittleComputer

/-- The whole state of the computer. -/
structure Machine where
  /-- Registers, program counter and flags. -/
  processor : Processor
  /-- The address space. -/
  memory : Memory
  /-- Where characters come from and go to. -/
  terminal : Terminal

/-- An action on the machine that gives an `α` or stops. -/
abbrev Exec := EStateM Stop Machine

namespace Exec

/-- Changes the processor. -/
def onProcessor (f : Processor → Processor) : Exec Unit :=
  modify fun m => { m with processor := f m.processor }

/-- Changes the terminal. -/
def onTerminal (f : Terminal → Terminal) : Exec Unit :=
  modify fun m => { m with terminal := f m.terminal }

/-- The program counter. -/
def pc : Exec Word := return (← get).processor.pc

/-- The condition flags. -/
def condition : Exec Condition := return (← get).processor.cond

/-- The value of a register. -/
def register (r : Register) : Exec Word := return (← get).processor.register r

/-- Writes a register and leaves the flags alone. -/
def setRegister (r : Register) (w : Word) : Exec Unit := onProcessor (·.setRegister r w)

/-- Writes the result of an operation: the register and the flags that go with it. -/
def setResult (r : Register) (w : Word) : Exec Unit :=
  onProcessor fun p => (p.setRegister r w).setFlags r

/-- Reads the word at an address, with the keyboard behind its register. -/
def load (address : Int) : Exec Word := fun ⟨processor, memory, terminal⟩ =>
  match memory.read Terminal.read terminal (Word.ofInt address) with
  | (.ok w, memory, terminal) => .ok w ⟨processor, memory, terminal⟩
  | (.error stop, memory, terminal) => .error stop ⟨processor, memory, terminal⟩

/-- Writes a word to an address. -/
def store (address : Int) (w : Word) : Exec Unit :=
  modify fun m => { m with memory := m.memory.poke (Word.ofInt address) w }

/-- The string at an address; the search for its end is endless if no cell is zero. -/
def string (address : Word) : Exec (List Word) := do
  match (← get).memory.string? address with
  | some words => return words
  | none => throw .endless

/-- Takes a character from the terminal. -/
def readChar : Exec Nat := fun ⟨processor, memory, terminal⟩ =>
  match terminal.read with
  | (.ok code, terminal) => .ok code ⟨processor, memory, terminal⟩
  | (.error stop, terminal) => .error stop ⟨processor, memory, terminal⟩

/-- Writes the low bytes of some codes to the terminal. -/
def write (codes : List Int) : Exec Unit := onTerminal (·.writeAll codes)

/-- Pushes out the terminal's output. -/
def flush : Exec Unit := onTerminal Terminal.flush

/-- Stops the program with a fault. -/
def fail {α : Type} (cause : Fault) : Exec α := throw (.fault cause)

end Exec

end LittleComputer
