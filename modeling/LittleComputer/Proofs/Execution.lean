import LittleComputer.Machine.Execute

/-!
# What each instruction does

Instructions are written as sequences of small actions on the machine.  This file says, action by
action and instruction by instruction, what becomes of the machine, so that no later proof has to
take a sequence apart again.

* `Machine.setResult`, `Machine.store`, … — the effects of the actions, as functions on machines.
* `Exec.bind_eq_ok`, `Exec.bind_eq_error` — a sequence succeeds if both halves do, and stops where
  the first of them stops; `Exec.bind_finish_eq_ok`, `Exec.bind_finish_eq_error` where the second
  half cannot stop.
* `Exec.load_cases`, `Exec.readChar_cases` — what a read can come to.
* `Instruction.perform_add`, … — one equation for each instruction that does something of its own;
  `Instruction.trap_cases` — a trap is its routine.
* `Trap.run_getc`, … — and one for each trap routine.
-/

namespace LittleComputer

/-! ## Effects on the machine -/

namespace Machine

/-- The machine after a register has been written. -/
def setRegister (m : Machine) (r : Register) (w : Word) : Machine :=
  { m with processor := m.processor.setRegister r w }

/-- The machine after the result of an operation has been written, with the flags that go with
it. -/
def setResult (m : Machine) (r : Register) (w : Word) : Machine :=
  { m with processor := (m.processor.setRegister r w).setFlags r }

/-- The machine after a cell has been written. -/
def store (m : Machine) (address w : Word) : Machine :=
  { m with memory := m.memory.poke address w }

/-- The machine after its terminal has been used. -/
def withTerminal (m : Machine) (t : Terminal) : Machine := { m with terminal := t }

/-- The machine after the keyboard has been found ready. -/
def markReady (m : Machine) : Machine := m.store Memory.keyboardStatus Memory.keyboardReady

/-- The machine after a character has been read through the keyboard registers. -/
def receive (m : Machine) (code : Nat) (t : Terminal) : Machine :=
  (m.markReady.store Memory.keyboardData (BitVec.ofNat 16 code)).withTerminal t

/-- The machine after a jump, if there is one. -/
def jumpTo (m : Machine) : Option Int → Machine
  | some target => { m with processor := m.processor.jump target }
  | none => m

/-- Jumps move nothing but the program counter. -/
theorem registers_jumpTo (m : Machine) (target : Option Int) :
    (m.jumpTo target).processor.registers = m.processor.registers := by
  cases target <;> rfl

theorem cond_jumpTo (m : Machine) (target : Option Int) :
    (m.jumpTo target).processor.cond = m.processor.cond := by
  cases target <;> rfl

end Machine

namespace Exec

/-- The action that only changes the machine and gives a fixed value. -/
def finish {α : Type} (a : α) (f : Machine → Machine) : Exec α := fun m => .ok a (f m)

/-! ## Sequences of actions -/

section Sequences

variable {α β : Type}

theorem bind_apply (x : Exec α) (f : α → Exec β) (m : Machine) :
    (x >>= f) m = match x m with
      | .ok a m => f a m
      | .error e m => .error e m := by
  simp only [bind, EStateM.bind]
  cases x m <;> rfl

theorem bind_eq_ok {x : Exec α} {f : α → Exec β} {m m' : Machine} {b : β} :
    (x >>= f) m = .ok b m' ↔ ∃ a m₁, x m = .ok a m₁ ∧ f a m₁ = .ok b m' := by
  rw [bind_apply]
  constructor
  · intro h
    cases hx : x m with
    | ok a m₁ =>
        rw [hx] at h
        exact ⟨a, m₁, rfl, h⟩
    | error e m₁ =>
        rw [hx] at h
        cases h
  · rintro ⟨a, m₁, hx, hf⟩
    rw [hx]
    exact hf

theorem bind_eq_error {x : Exec α} {f : α → Exec β} {m m' : Machine} {e : Stop} :
    (x >>= f) m = .error e m' ↔
      x m = .error e m' ∨ ∃ a m₁, x m = .ok a m₁ ∧ f a m₁ = .error e m' := by
  rw [bind_apply]
  constructor
  · intro h
    cases hx : x m with
    | ok a m₁ =>
        rw [hx] at h
        exact .inr ⟨a, m₁, rfl, h⟩
    | error e₁ m₁ =>
        rw [hx] at h
        cases h
        exact .inl rfl
  · rintro (hx | ⟨a, m₁, hx, hf⟩)
    · rw [hx]
    · rw [hx]
      exact hf

theorem pure_apply (a : α) (m : Machine) : (pure a : Exec α) m = .ok a m := rfl

theorem finish_apply (a : α) (f : Machine → Machine) (m : Machine) :
    finish a f m = .ok a (f m) := rfl

theorem bind_finish_eq_ok {x : Exec α} {b : α → β} {f : α → Machine → Machine} {m m' : Machine}
    {c : β} :
    (x >>= fun a => finish (b a) (f a)) m = .ok c m' ↔
      ∃ a m₁, x m = .ok a m₁ ∧ c = b a ∧ m' = f a m₁ := by
  rw [bind_eq_ok]
  constructor
  · rintro ⟨a, m₁, hx, hf⟩
    cases hf
    exact ⟨a, m₁, hx, rfl, rfl⟩
  · rintro ⟨a, m₁, hx, rfl, rfl⟩
    exact ⟨a, m₁, hx, rfl⟩

theorem bind_finish_eq_error {x : Exec α} {b : α → β} {f : α → Machine → Machine}
    {m m' : Machine} {e : Stop} :
    (x >>= fun a => finish (b a) (f a)) m = .error e m' ↔ x m = .error e m' := by
  rw [bind_eq_error]
  constructor
  · rintro (hx | ⟨a, m₁, -, hf⟩)
    · exact hx
    · cases hf
  · exact .inl

end Sequences

/-! ## Single actions -/

variable (m : Machine)

theorem pc_apply : pc m = .ok m.processor.pc m := rfl

theorem condition_apply : condition m = .ok m.processor.cond m := rfl

theorem register_apply (r : Register) : register r m = .ok (m.processor.register r) m := rfl

theorem setRegister_apply (r : Register) (w : Word) :
    setRegister r w m = .ok () (m.setRegister r w) := rfl

theorem setResult_apply (r : Register) (w : Word) :
    setResult r w m = .ok () (m.setResult r w) := rfl

theorem store_apply (address : Int) (w : Word) :
    store address w m = .ok () (m.store (Word.ofInt address) w) := rfl

theorem write_apply (codes : List Int) :
    write codes m = .ok () (m.withTerminal (m.terminal.writeAll codes)) := rfl

theorem flush_apply : flush m = .ok () (m.withTerminal m.terminal.flush) := rfl

theorem string_apply (address : Word) :
    string address m = match m.memory.string? address with
      | some words => .ok words m
      | none => .error Stop.endless m := by
  have h : string address m = (match m.memory.string? address with
      | some words => (pure words : Exec (List Word))
      | none => throw Stop.endless) m := rfl
  rw [h]
  cases m.memory.string? address <;> rfl

/-! ## Reading -/

theorem load_apply (address : Int) :
    load address m = match m.memory.read Terminal.read m.terminal (Word.ofInt address) with
      | (.ok w, memory, terminal) => .ok w ⟨m.processor, memory, terminal⟩
      | (.error e, memory, terminal) => .error e ⟨m.processor, memory, terminal⟩ := rfl

/-- Only the keyboard status register is more than a cell. -/
theorem load_of_ne {address : Int} (h : Word.ofInt address ≠ Memory.keyboardStatus) :
    load address m = .ok (m.memory.peek (Word.ofInt address)) m := by
  rw [load_apply, Memory.read_of_ne Terminal.read m.memory m.terminal h]

theorem load_keyboard_ok {address : Int} (h : Word.ofInt address = Memory.keyboardStatus)
    {code : Nat} {t : Terminal} (hread : m.terminal.read = (.ok code, t)) :
    load address m = .ok Memory.keyboardReady (m.receive code t) := by
  rw [load_apply, h, Memory.read_keyboardStatus Terminal.read m.memory hread]
  rfl

theorem load_keyboard_error {address : Int} (h : Word.ofInt address = Memory.keyboardStatus)
    {e : Stop} {t : Terminal} (hread : m.terminal.read = (.error e, t)) :
    load address m = .error e (m.markReady.withTerminal t) := by
  rw [load_apply, Memory.read, if_pos h, hread]
  rfl

/-- What a read that completes has done: it has looked at a cell, or it has taken a character
through the keyboard registers. -/
theorem load_cases {address : Int} {m m' : Machine} {w : Word} (h : load address m = .ok w m') :
    (Word.ofInt address ≠ Memory.keyboardStatus ∧ w = m.memory.peek (Word.ofInt address) ∧ m' = m) ∨
    (Word.ofInt address = Memory.keyboardStatus ∧ w = Memory.keyboardReady ∧
      ∃ code t, m.terminal.read = (.ok code, t) ∧ m' = m.receive code t) := by
  by_cases hk : Word.ofInt address = Memory.keyboardStatus
  · rcases hread : m.terminal.read with ⟨result, t⟩
    cases result with
    | ok code =>
        rw [load_keyboard_ok m hk hread] at h
        cases h
        exact .inr ⟨hk, rfl, code, t, rfl, rfl⟩
    | error e =>
        rw [load_keyboard_error m hk hread] at h
        cases h
  · rw [load_of_ne m hk] at h
    cases h
    exact .inl ⟨hk, rfl, rfl⟩

/-- Reads leave the processor alone. -/
theorem processor_load {address : Int} {m m' : Machine} {w : Word}
    (h : load address m = .ok w m') : m'.processor = m.processor := by
  obtain ⟨-, -, rfl⟩ | ⟨-, -, code, t, -, rfl⟩ := load_cases h <;> rfl

/-- A read stops only where the terminal does. -/
theorem load_error_cases {address : Int} {m m' : Machine} {e : Stop}
    (h : load address m = .error e m') :
    Word.ofInt address = Memory.keyboardStatus ∧
      ∃ t, m.terminal.read = (.error e, t) ∧ m' = m.markReady.withTerminal t := by
  by_cases hk : Word.ofInt address = Memory.keyboardStatus
  · rcases hread : m.terminal.read with ⟨result, t⟩
    cases result with
    | ok code =>
        rw [load_keyboard_ok m hk hread] at h
        cases h
    | error e₁ =>
        rw [load_keyboard_error m hk hread] at h
        cases h
        exact ⟨hk, t, rfl, rfl⟩
  · rw [load_of_ne m hk] at h
    cases h

theorem readChar_apply :
    readChar m = match m.terminal.read with
      | (.ok code, terminal) => .ok code (m.withTerminal terminal)
      | (.error e, terminal) => .error e (m.withTerminal terminal) := rfl

theorem readChar_cases {m m' : Machine} {code : Nat} (h : readChar m = .ok code m') :
    ∃ t, m.terminal.read = (.ok code, t) ∧ m' = m.withTerminal t := by
  rcases hread : m.terminal.read with ⟨result, t⟩
  rw [readChar_apply, hread] at h
  cases result with
  | ok c =>
      cases h
      exact ⟨t, rfl, rfl⟩
  | error e => cases h

theorem readChar_error_cases {m m' : Machine} {e : Stop} (h : readChar m = .error e m') :
    ∃ t, m.terminal.read = (.error e, t) ∧ m' = m.withTerminal t := by
  rcases hread : m.terminal.read with ⟨result, t⟩
  rw [readChar_apply, hread] at h
  cases result with
  | ok c => cases h
  | error e₁ =>
      cases h
      exact ⟨t, rfl, rfl⟩

end Exec

open Exec

/-! ## Instructions -/

namespace Instruction

variable (i : Instruction) (m : Machine)

/-- The value of the second operand. -/
def operandOf (p : Processor) : Word :=
  if i.immFlag then Word.ofInt i.imm5 else p.register i.sr2

theorem operand_apply : i.operand m = .ok (i.operandOf m.processor) m := by
  unfold operand operandOf
  split <;> rfl

theorem pcRelative_apply (offset : Int) :
    pcRelative offset m = .ok (m.processor.pc.toNat + offset) m := rfl

theorem baseRelative_apply (offset : Int) :
    i.baseRelative offset m = .ok ((m.processor.register i.baseR).toNat + offset) m := rfl

theorem perform_add :
    i.perform .add m = .ok none
      (m.setResult i.dr (m.processor.register i.sr1 + i.operandOf m.processor)) := by
  simp only [perform, bind_apply, operand_apply, register_apply, setResult_apply, pure_apply]

theorem perform_and :
    i.perform .and m = .ok none
      (m.setResult i.dr (m.processor.register i.sr1 &&& i.operandOf m.processor)) := by
  simp only [perform, bind_apply, operand_apply, register_apply, setResult_apply, pure_apply]

theorem perform_not :
    i.perform .not m = .ok none (m.setResult i.dr (~~~m.processor.register i.sr1)) := rfl

theorem perform_br :
    i.perform .br m = .ok
      (if i.nzp &&& m.processor.cond = 0 then none else some (m.processor.pc.toNat + i.pcOffset9))
      m := by
  simp only [perform, bind_apply, condition_apply]
  split <;> simp only [bind_apply, pcRelative_apply, pure_apply]

theorem perform_jmp :
    i.perform .jmp m = .ok (some (m.processor.register i.baseR).toNat) m := rfl

/-- The base of a subroutine jump is read before the return address is written. -/
theorem perform_jsr :
    i.perform .jsr m = .ok
      (some (if i.longFlag then m.processor.pc.toNat + i.pcOffset11
        else (m.processor.register i.baseR).toNat + 0))
      (m.setRegister .r7 m.processor.pc) := by
  rw [perform]
  cases i.longFlag <;> rfl

theorem perform_ld :
    i.perform .ld m = (load (m.processor.pc.toNat + i.pcOffset9)
      >>= fun w => finish none (·.setResult i.dr w)) m := by
  simp only [perform, bind_apply, pcRelative_apply, setResult_apply, pure_apply, finish_apply]

theorem perform_ldi :
    i.perform .ldi m = (load (m.processor.pc.toNat + i.pcOffset9)
      >>= fun pointer => load pointer.toNat
      >>= fun w => finish none (·.setResult i.dr w)) m := by
  simp only [perform, bind_apply, pcRelative_apply, setResult_apply, pure_apply, finish_apply]

theorem perform_ldr :
    i.perform .ldr m = (load ((m.processor.register i.baseR).toNat + i.offset6)
      >>= fun w => finish none (·.setResult i.dr w)) m := by
  simp only [perform, bind_apply, baseRelative_apply, setResult_apply, pure_apply, finish_apply]

theorem perform_lea :
    i.perform .lea m = .ok none
      (m.setResult i.dr (Word.ofInt (m.processor.pc.toNat + i.pcOffset9))) := rfl

theorem perform_st :
    i.perform .st m = .ok none
      (m.store (Word.ofInt (m.processor.pc.toNat + i.pcOffset9)) (m.processor.register i.sr)) := rfl

theorem perform_sti :
    i.perform .sti m = (load (m.processor.pc.toNat + i.pcOffset9)
      >>= fun pointer => finish none fun m =>
        m.store (Word.ofInt pointer.toNat) (m.processor.register i.sr)) m := by
  simp only [perform, bind_apply, pcRelative_apply, register_apply, store_apply, pure_apply,
    finish_apply]

theorem perform_str :
    i.perform .str m = .ok none
      (m.store (Word.ofInt ((m.processor.register i.baseR).toNat + i.offset6))
        (m.processor.register i.sr)) := rfl

theorem perform_rti : i.perform .rti m = .error (.fault (.unusedOpcode i.mnemonic)) m := rfl

theorem perform_res : i.perform .res m = .error (.fault (.unusedOpcode i.mnemonic)) m := rfl

theorem perform_trap {routine : Trap} (h : Trap.ofVector? i.trapVector = some routine) :
    i.perform .trap m = (routine.run >>= fun _ => finish none id) m := by
  simp only [perform, h]
  rfl

theorem perform_trap_unknown (h : Trap.ofVector? i.trapVector = none) :
    i.perform .trap m = .error (.fault (.unknownTrapVector i.trapVector)) m := by
  simp only [perform, h]
  rfl

/-- A trap that can be carried out is its routine. -/
theorem trap_cases {i : Instruction} {m m' : Machine} {target : Option Int}
    (h : i.perform .trap m = .ok target m') :
    target = none ∧ ∃ routine, Trap.ofVector? i.trapVector = some routine ∧
      routine.run m = .ok () m' := by
  cases hv : Trap.ofVector? i.trapVector with
  | none =>
      rw [perform_trap_unknown i m hv] at h
      cases h
  | some routine =>
      rw [perform_trap i m hv, bind_finish_eq_ok] at h
      obtain ⟨u, m₁, hrun, rfl, rfl⟩ := h
      exact ⟨rfl, routine, rfl, hrun⟩

end Instruction

/-! ## Trap routines -/

namespace Trap

variable (m : Machine)

theorem run_getc :
    getc.run m = (readChar >>= fun code => finish () fun m =>
      (m.setRegister .r0 (BitVec.ofNat 16 code)).withTerminal m.terminal.flush) m := by
  simp only [run, bind_apply, setRegister_apply, flush_apply, finish_apply]
  rfl

theorem run_out :
    out.run m = .ok ()
      (m.withTerminal (m.terminal.writeAll [((m.processor.register .r0).toNat : Int)])) := rfl

theorem run_puts :
    puts.run m = (string (m.processor.register .r0) >>= fun words => finish () fun m =>
      m.withTerminal (m.terminal.writeAll (words.map fun w => (w.toNat : Int))).flush) m := by
  simp only [run, bind_apply, register_apply, write_apply, flush_apply, finish_apply]
  rfl

theorem run_readEcho :
    readEcho.run m = (readChar >>= fun code => finish () fun m =>
      (m.withTerminal (m.terminal.writeAll [(code : Int)])).setRegister .r0
        (BitVec.ofNat 16 code)) m := by
  simp only [run, bind_apply, write_apply, setRegister_apply, finish_apply]

theorem run_putsp :
    putsp.run m = (string (m.processor.register .r0) >>= fun words => finish () fun m =>
      m.withTerminal (m.terminal.writeAll (words.flatMap unpack)).flush) m := by
  simp only [run, bind_apply, register_apply, write_apply, flush_apply, finish_apply]
  rfl

theorem run_halt :
    halt.run m = .ok ()
      { m with
        processor := { m.processor with status := .halted }
        terminal := m.terminal.flush } := rfl

end Trap

end LittleComputer
