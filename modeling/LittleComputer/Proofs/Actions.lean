import LittleComputer.Machine.Execute

/-!
# What instructions are made of

Whatever the machine does is a sequence of a few actions: looking at the processor and at memory,
writing registers and cells, moving the program counter, using the terminal, halting and failing.

* `Exec.Built` — the actions that are made of these, and nothing else.
* `Exec.built_perform`, `Exec.built_cycle` — **instructions and whole cycles are**.

A fact about the single actions that goes over to sequences is therefore proved by induction on
`Exec.Built`, and then it is a fact about cycles.
-/

namespace LittleComputer

namespace Exec

/-- Looking at the processor. -/
def look {α : Type} (f : Processor → α) : Exec α := fun m => .ok (f m.processor) m

/-- The actions that instructions are made of. -/
inductive Built : {α : Type} → Exec α → Prop
  /-- Doing nothing. -/
  | pure {α : Type} (a : α) : Built (Pure.pure a)
  /-- One action after the other. -/
  | bind {α β : Type} {x : Exec α} {f : α → Exec β} :
      Built x → (∀ a, Built (f a)) → Built (x >>= f)
  /-- Failing. -/
  | fail {α : Type} (cause : Fault) : Built (fail cause : Exec α)
  /-- Looking at the processor. -/
  | look {α : Type} (f : Processor → α) : Built (look f)
  /-- Looking for a string in memory. -/
  | string (address : Word) : Built (string address)
  /-- Writing a register. -/
  | setRegister (r : Register) (w : Word) : Built (setRegister r w)
  /-- Writing a result with its flags. -/
  | setResult (r : Register) (w : Word) : Built (setResult r w)
  /-- Moving the program counter, with another instruction in hand. -/
  | move (f : Processor → Word × Option Int) :
      Built (onProcessor fun p => { p with pc := (f p).1, ir := (f p).2 })
  /-- Halting. -/
  | halt : Built (onProcessor fun p => { p with status := .halted })
  /-- Reading a word. -/
  | load (address : Int) : Built (load address)
  /-- Writing a cell. -/
  | store (address : Int) (w : Word) : Built (store address w)
  /-- Taking a character. -/
  | readChar : Built readChar
  /-- Writing characters. -/
  | write (codes : List Int) : Built (write codes)
  /-- Pushing out what has been written. -/
  | flush : Built flush
  /-- Forgetting the last codes. -/
  | resetCodes : Built (onTerminal Terminal.resetCodes)

theorem built_pc : Built pc := .look fun p => p.pc

theorem built_condition : Built condition := .look fun p => p.cond

theorem built_register (r : Register) : Built (register r) := .look fun p => p.register r

theorem built_operand (i : Instruction) : Built i.operand := by
  unfold Instruction.operand
  split
  · exact .pure _
  · exact built_register _

theorem built_pcRelative (offset : Int) : Built (Instruction.pcRelative offset) :=
  .bind built_pc fun _ => .pure _

theorem built_baseRelative (i : Instruction) (offset : Int) : Built (i.baseRelative offset) :=
  .bind (built_register _) fun _ => .pure _

theorem built_jump (target : Int) : Built (onProcessor (·.jump target)) :=
  .move fun p => (Word.ofInt target, p.ir)

theorem built_run (routine : Trap) : Built routine.run := by
  cases routine with
  | getc => exact .bind .readChar fun _ => .bind (.setRegister _ _) fun _ => .flush
  | out => exact .bind (built_register _) fun _ => .write _
  | puts | putsp =>
      exact .bind (built_register _) fun _ => .bind (.string _) fun _ =>
        .bind (.write _) fun _ => .flush
  | readEcho => exact .bind .readChar fun _ => .bind (.write _) fun _ => .setRegister _ _
  | halt => exact .bind .flush fun _ => .halt

/-- **Instructions are made of these actions.** -/
theorem built_perform (i : Instruction) (op : Opcode) : Built (i.perform op) := by
  cases op with
  | add | and =>
      exact .bind (built_operand i) fun _ => .bind (built_register _) fun _ =>
        .bind (.setResult _ _) fun _ => .pure none
  | not =>
      exact .bind (built_register _) fun _ => .bind (.setResult _ _) fun _ => .pure none
  | br =>
      refine .bind built_condition fun c => ?_
      split
      · exact .pure none
      · exact .bind (built_pcRelative _) fun _ => .pure _
  | jmp => exact .bind (built_register _) fun _ => .pure _
  | jsr =>
      rw [Instruction.perform]
      cases i.longFlag with
      | true =>
          exact .bind (built_pcRelative _) fun _ => .bind built_pc fun _ =>
            .bind (.setRegister _ _) fun _ => .pure _
      | false =>
          exact .bind (built_baseRelative i _) fun _ => .bind built_pc fun _ =>
            .bind (.setRegister _ _) fun _ => .pure _
  | ld =>
      exact .bind (built_pcRelative _) fun _ => .bind (.load _) fun _ =>
        .bind (.setResult _ _) fun _ => .pure none
  | ldi =>
      exact .bind (built_pcRelative _) fun _ => .bind (.load _) fun _ =>
        .bind (.load _) fun _ => .bind (.setResult _ _) fun _ => .pure none
  | ldr =>
      exact .bind (built_baseRelative i _) fun _ => .bind (.load _) fun _ =>
        .bind (.setResult _ _) fun _ => .pure none
  | lea =>
      exact .bind (built_pcRelative _) fun _ => .bind (.setResult _ _) fun _ => .pure none
  | st =>
      exact .bind (built_pcRelative _) fun _ => .bind (built_register _) fun _ =>
        .bind (.store _ _) fun _ => .pure none
  | sti =>
      exact .bind (built_pcRelative _) fun _ => .bind (.load _) fun _ =>
        .bind (built_register _) fun _ => .bind (.store _ _) fun _ => .pure none
  | str =>
      exact .bind (built_baseRelative i _) fun _ => .bind (built_register _) fun _ =>
        .bind (.store _ _) fun _ => .pure none
  | rti | res => exact .fail _
  | trap =>
      rw [Instruction.perform]
      cases Trap.ofVector? i.trapVector with
      | some routine => exact .bind (built_run routine) fun _ => .pure none
      | none => exact .bind (.fail _) fun _ => .pure none

theorem built_execute (instructions : InstructionSet) (i : Instruction) :
    Built (i.execute instructions) := by
  unfold Instruction.execute
  split
  · split
    · exact built_perform i _
    · exact .fail _
  · exact .fail _

theorem built_executeAndJump (instructions : InstructionSet) (i : Instruction) :
    Built (executeAndJump instructions i) := by
  refine .bind (built_execute instructions i) fun target => ?_
  cases target with
  | some target => exact .bind (built_jump target) fun _ => .pure _
  | none => exact .pure _

theorem built_fetch : Built fetch :=
  .bind built_pc fun address => .bind (.move fun p => (p.pc, none)) fun _ =>
    .bind (.load _) fun w =>
      .bind (.move fun _ => (Word.ofInt (address.toNat + 1), some w.toNat)) fun _ => .pure w

/-- **Cycles are made of these actions.** -/
theorem built_cycle (instructions : InstructionSet) : Built (cycle instructions) :=
  .bind built_fetch fun w => .bind .resetCodes fun _ =>
    .bind (built_executeAndJump instructions _) fun _ => .pure w

end Exec

end LittleComputer
