import LittleComputer.Proofs.Cycle
import Mathlib.Logic.Function.Basic
import Mathlib.Tactic.IntervalCases

/-!
# The architecture and its refinement

What a programmer has to know about the machine: registers, flags, status, memory and the input
still to come, all of them words or lists of codes, and operations whose immediates and offsets are
*signed* fields of 5, 6, 9 and 11 bits.  Nothing here computes with integers, pads fields or reduces
an address late; addresses and sums are sums of words.

* `State.read` — a read marks the keyboard ready and takes a character exactly at the address of the
  keyboard status register.
* `Operation.ofWord`, `State.execute`, `State.step` — decoding, execution and one step.
* `step_of_cycle` — **refinement**: whatever cycle of the machine is completed is this step.
-/

namespace LittleComputer.Architecture

/-! ## The state -/

/-- What programs can see and change. -/
structure State where
  /-- The general registers. -/
  registers : Register → Word
  /-- The program counter. -/
  pc : Word
  /-- The condition flags. -/
  cond : Condition
  /-- Whether the machine runs. -/
  status : Status
  /-- The address space. -/
  memory : Word → Word
  /-- The codes of the characters not yet read. -/
  input : List Nat

namespace State

variable (s : State)

/-- Writes a register. -/
def setRegister (r : Register) (w : Word) : State :=
  { s with registers := Function.update s.registers r w }

/-- Writes the result of an operation, with the flags that go with it. -/
def setResult (r : Register) (w : Word) : State := { s.setRegister r w with cond := .ofWord w }

/-- Writes a cell. -/
def store (address w : Word) : State := { s with memory := Function.update s.memory address w }

/-- Takes the next character, modulo `2 ^ 16`; at the end of the input that is `0xFFFF`. -/
def receive : Word × State :=
  match s.input with
  | code :: rest => (BitVec.ofNat 16 code, { s with input := rest })
  | [] => (0xFFFF, s)

/-- Reads a word.  At `0xFE00`, and only there, the keyboard is marked ready and the next character
moves to `0xFE02` first. -/
def read (address : Word) : Word × State :=
  if address = 0xFE00 then
    let (w, t) := s.receive
    let t := (t.store 0xFE00 0x8000).store 0xFE02 w
    (t.memory address, t)
  else (s.memory address, s)

end State

/-! ## Operations -/

/-- The second operand of an arithmetic operation. -/
inductive Operand where
  /-- A register. -/
  | register (r : Register)
  /-- A signed number. -/
  | immediate (value : BitVec 5)
  deriving DecidableEq, Repr

/-- The operations of the machine.  Offsets count from the program counter, which has passed the
instruction, or from a base register. -/
inductive Operation where
  | br (mask : Condition) (offset : BitVec 9)
  | add (dr a : Register) (b : Operand)
  | ld (dr : Register) (offset : BitVec 9)
  | st (sr : Register) (offset : BitVec 9)
  | jsr (offset : BitVec 11)
  | jsrr (base : Register)
  | and (dr a : Register) (b : Operand)
  | ldr (dr base : Register) (offset : BitVec 6)
  | str (sr base : Register) (offset : BitVec 6)
  | not (dr a : Register)
  | ldi (dr : Register) (offset : BitVec 9)
  | sti (sr : Register) (offset : BitVec 9)
  | jmp (base : Register)
  | lea (dr : Register) (offset : BitVec 9)
  | trap (vector : BitVec 8)
  /-- Returning from interrupts, which the machine does not have, and the reserved code. -/
  | undefined
  deriving DecidableEq, Repr

/-- The register named by the three bits from `low` on. -/
def registerAt (w : Word) (low : Nat) : Register := (w.extractLsb' low 3).toFin

/-- The second operand: bit 5 tells an immediate one. -/
def operandOf (w : Word) : Operand :=
  if w.getLsbD 5 then .immediate (w.extractLsb' 0 5) else .register (registerAt w 0)

/-- The operation that a word stands for, by its top four bits. -/
def Operation.ofWord (w : Word) : Operation :=
  match (w.extractLsb' 12 4).toNat with
  | 0x0 => .br (w.extractLsb' 9 3) (w.extractLsb' 0 9)
  | 0x1 => .add (registerAt w 9) (registerAt w 6) (operandOf w)
  | 0x2 => .ld (registerAt w 9) (w.extractLsb' 0 9)
  | 0x3 => .st (registerAt w 9) (w.extractLsb' 0 9)
  | 0x4 => if w.getLsbD 11 then .jsr (w.extractLsb' 0 11) else .jsrr (registerAt w 6)
  | 0x5 => .and (registerAt w 9) (registerAt w 6) (operandOf w)
  | 0x6 => .ldr (registerAt w 9) (registerAt w 6) (w.extractLsb' 0 6)
  | 0x7 => .str (registerAt w 9) (registerAt w 6) (w.extractLsb' 0 6)
  | 0x9 => .not (registerAt w 9) (registerAt w 6)
  | 0xA => .ldi (registerAt w 9) (w.extractLsb' 0 9)
  | 0xB => .sti (registerAt w 9) (w.extractLsb' 0 9)
  | 0xC => .jmp (registerAt w 6)
  | 0xE => .lea (registerAt w 9) (w.extractLsb' 0 9)
  | 0xF => .trap (w.extractLsb' 0 8)
  | _ => .undefined

/-! ## Steps -/

namespace State

variable (s : State)

/-- The value of a second operand. -/
def operand : Operand → Word
  | .register r => s.registers r
  | .immediate value => value.signExtend 16

/-- The address at a signed offset from the program counter. -/
def relative {n : Nat} (offset : BitVec n) : Word := s.pc + offset.signExtend 16

/-- The address at a signed offset from a register. -/
def indexed (base : Register) (offset : BitVec 6) : Word := s.registers base + offset.signExtend 16

/-- Carries out a trap: `0x20` and `0x23` take a character into the first register, `0x25` halts, and
the three that write leave everything here as it is.  No other vector has a routine. -/
def trap (vector : BitVec 8) : Option State :=
  match vector.toNat with
  | 0x20 | 0x23 =>
    let (w, t) := s.receive
    some (t.setRegister .r0 w)
  | 0x21 | 0x22 | 0x24 => some s
  | 0x25 => some { s with status := .halted }
  | _ => none

/-- Carries out an operation, if it is defined, with the program counter past it. -/
def execute : Operation → Option State
  | .br mask offset => some (if mask &&& s.cond = 0 then s else { s with pc := s.relative offset })
  | .add dr a b => some (s.setResult dr (s.registers a + s.operand b))
  | .and dr a b => some (s.setResult dr (s.registers a &&& s.operand b))
  | .not dr a => some (s.setResult dr (~~~s.registers a))
  | .ld dr offset =>
    let (w, t) := s.read (s.relative offset)
    some (t.setResult dr w)
  | .ldi dr offset =>
    let (pointer, t) := s.read (s.relative offset)
    let (w, t) := t.read pointer
    some (t.setResult dr w)
  | .ldr dr base offset =>
    let (w, t) := s.read (s.indexed base offset)
    some (t.setResult dr w)
  | .lea dr offset => some (s.setResult dr (s.relative offset))
  | .st sr offset => some (s.store (s.relative offset) (s.registers sr))
  | .sti sr offset =>
    let (pointer, t) := s.read (s.relative offset)
    some (t.store pointer (s.registers sr))
  | .str sr base offset => some (s.store (s.indexed base offset) (s.registers sr))
  | .jmp base => some { s with pc := s.registers base }
  | .jsr offset => some { s.setRegister .r7 s.pc with pc := s.relative offset }
  | .jsrr base => some { s.setRegister .r7 s.pc with pc := s.registers base }
  | .trap vector => s.trap vector
  | .undefined => none

/-- One step: reads the word at the program counter, moves the counter on and carries the word
out. -/
def step : Option State :=
  let (w, t) := s.read s.pc
  { t with pc := s.pc + 1 }.execute (.ofWord w)

/-! ## The machine as a state of the architecture -/

/-- What a machine shows to programs. -/
def ofMachine (m : Machine) : State where
  registers := m.processor.register
  pc := m.processor.pc
  cond := m.processor.cond
  status := m.processor.status
  memory := m.memory.peek
  input := m.terminal.pending

/-! ### Effects -/

variable {m m' : Machine}

theorem ofMachine_setRegister (m : Machine) (r : Register) (w : Word) :
    ofMachine (m.setRegister r w) = (ofMachine m).setRegister r w := by
  have h : (m.processor.setRegister r w).register
      = Function.update m.processor.register r w := by
    funext q
    rw [Processor.register_setRegister]
    by_cases hq : r = q
    · rw [if_pos hq, hq, Function.update_self]
    · rw [if_neg hq, Function.update_of_ne (Ne.symm hq)]
  simp only [ofMachine, Machine.setRegister, setRegister, h]
  rfl

theorem ofMachine_setResult (m : Machine) (r : Register) (w : Word) :
    ofMachine (m.setResult r w) = (ofMachine m).setResult r w := by
  have h : (m.processor.setRegister r w).register r = w := by
    rw [Processor.register_setRegister, if_pos rfl]
  rw [setResult, ← ofMachine_setRegister]
  simp only [ofMachine, Machine.setResult, Machine.setRegister, Processor.setFlags, h]
  rfl

theorem ofMachine_store (m : Machine) (address w : Word) :
    ofMachine (m.store address w) = (ofMachine m).store address w := by
  have h : (m.memory.poke address w).peek = Function.update m.memory.peek address w := by
    funext a
    rw [Memory.peek_poke]
    by_cases ha : address = a
    · rw [if_pos ha, ha, Function.update_self]
    · rw [if_neg ha, Function.update_of_ne (Ne.symm ha)]
  simp only [ofMachine, Machine.store, store, h]

theorem ofMachine_jump (m : Machine) (target : Int) :
    ofMachine (m.jumpTo (some target)) = { ofMachine m with pc := Word.ofInt target } := rfl

/-- Taking a character from the terminal takes it from the input. -/
theorem receive_of_read {code : Nat} {t : Terminal} (h : m.terminal.read = (.ok code, t)) :
    (ofMachine m).receive = (BitVec.ofNat 16 code, ofMachine (m.withTerminal t)) := by
  obtain ⟨rfl, hrest, -⟩ := Terminal.read_ok_cases h
  unfold receive
  split
  · rename_i c rest hinput
    have hp : m.terminal.pending = c :: rest := hinput
    simp only [ofMachine, Machine.withTerminal, hrest, hp, List.headD_cons, List.tail_cons]
  · rename_i hinput
    have hp : m.terminal.pending = [] := hinput
    simp only [ofMachine, Machine.withTerminal, hrest, hp, List.headD_nil, List.tail_nil]
    rfl

/-- Reading through the machine is reading of the architecture. -/
theorem read_of_load {address : Int} {w : Word} (h : Exec.load address m = .ok w m') :
    (ofMachine m).read (Word.ofInt address) = (w, ofMachine m') := by
  obtain ⟨hne, rfl, rfl⟩ | ⟨hk, rfl, code, t, hread, rfl⟩ := Exec.load_cases h
  · have hne' : Word.ofInt address ≠ 0xFE00 := hne
    rw [read, if_neg hne']
    rfl
  · have hk' : Word.ofInt address = 0xFE00 := hk
    rw [read, if_pos hk', receive_of_read hread]
    have hreceive : ofMachine (m.receive code t)
        = ((ofMachine (m.withTerminal t)).store 0xFE00 0x8000).store 0xFE02
          (BitVec.ofNat 16 code) := by
      rw [← ofMachine_store, ← ofMachine_store]
      rfl
    simp only [← hreceive, hk]
    have hready : (ofMachine (m.receive code t)).memory Memory.keyboardStatus
        = Memory.keyboardReady := by
      rw [hreceive]
      rfl
    rw [hready]

/-! ### Fields -/

section Fields

variable (w : Word)

theorem registerAt_eq (low : Nat) : (decode w.toNat).registerAt low = registerAt w low :=
  Instruction.registerAt_decode w low

theorem operand_eq (m : Machine) :
    (decode w.toNat).operandOf m.processor = (ofMachine m).operand (operandOf w) := by
  unfold Instruction.operandOf operandOf
  rw [Instruction.immFlag_decode]
  cases w.getLsbD 5 with
  | true => exact Instruction.ofInt_extended_decode w (by omega) (by omega)
  | false =>
      rw [Instruction.sr2, registerAt_eq]
      rfl

/-- A sum of a word and an extended field is a sum of words. -/
theorem ofInt_add_extended (base : Word) {width : Nat} (pos : 0 < width) (short : width < 16) :
    Word.ofInt (base.toNat + (decode w.toNat).extended width)
      = base + (w.extractLsb' 0 width).signExtend 16 := by
  rw [Word.ofInt_add, Word.ofInt_toNat, Instruction.ofInt_extended_decode w pos short]

theorem relative_eq (m : Machine) :
    Word.ofInt (m.processor.pc.toNat + (decode w.toNat).pcOffset9)
      = (ofMachine m).relative (w.extractLsb' 0 9) :=
  ofInt_add_extended w _ (by omega) (by omega)

theorem relative_long_eq (m : Machine) :
    Word.ofInt (m.processor.pc.toNat + (decode w.toNat).pcOffset11)
      = (ofMachine m).relative (w.extractLsb' 0 11) :=
  ofInt_add_extended w _ (by omega) (by omega)

theorem indexed_eq (m : Machine) :
    Word.ofInt ((m.processor.register (decode w.toNat).baseR).toNat + (decode w.toNat).offset6)
      = (ofMachine m).indexed (registerAt w 6) (w.extractLsb' 0 6) := by
  rw [Instruction.baseR, registerAt_eq]
  exact ofInt_add_extended w _ (by omega) (by omega)

/-- The operation of a word goes by its opcode. -/
theorem ofWord_eq :
    Operation.ofWord w = match w.opcode with
      | .br => .br (w.extractLsb' 9 3) (w.extractLsb' 0 9)
      | .add => .add (registerAt w 9) (registerAt w 6) (operandOf w)
      | .ld => .ld (registerAt w 9) (w.extractLsb' 0 9)
      | .st => .st (registerAt w 9) (w.extractLsb' 0 9)
      | .jsr => if w.getLsbD 11 then .jsr (w.extractLsb' 0 11) else .jsrr (registerAt w 6)
      | .and => .and (registerAt w 9) (registerAt w 6) (operandOf w)
      | .ldr => .ldr (registerAt w 9) (registerAt w 6) (w.extractLsb' 0 6)
      | .str => .str (registerAt w 9) (registerAt w 6) (w.extractLsb' 0 6)
      | .rti => .undefined
      | .not => .not (registerAt w 9) (registerAt w 6)
      | .ldi => .ldi (registerAt w 9) (w.extractLsb' 0 9)
      | .sti => .sti (registerAt w 9) (w.extractLsb' 0 9)
      | .jmp => .jmp (registerAt w 6)
      | .res => .undefined
      | .lea => .lea (registerAt w 9) (w.extractLsb' 0 9)
      | .trap => .trap (w.extractLsb' 0 8) := by
  have hlt := (w.extractLsb' 12 4).isLt
  have hop := ofCode?_opcode_decode w
  rw [Instruction.opcode_decode] at hop
  unfold Operation.ofWord
  generalize (w.extractLsb' 12 4).toNat = code at hlt hop ⊢
  generalize w.opcode = op at hop ⊢
  interval_cases code <;> cases hop <;> rfl

end Fields

/-! ### Execution -/

/-- Only the pending input of a terminal shows. -/
theorem ofMachine_withTerminal (m : Machine) {t : Terminal}
    (h : t.pending = m.terminal.pending) : ofMachine (m.withTerminal t) = ofMachine m := by
  simp only [ofMachine, Machine.withTerminal, h]

/-- Trap routines do what the architecture says of their vectors. -/
theorem trap_of_run {routine : Trap} {vector : BitVec 8}
    (hv : Trap.ofVector? vector.toNat = some routine) (h : routine.run m = .ok () m') :
    (ofMachine m).trap vector = some (ofMachine m') := by
  have hvector : vector = BitVec.ofNat 8 routine.vector := by
    rw [← (Trap.ofVector?_eq_some_iff _ _).1 hv, BitVec.ofNat_toNat, BitVec.setWidth_eq]
  subst hvector
  cases routine with
  | getc =>
      rw [Trap.run_getc, Exec.bind_finish_eq_ok] at h
      obtain ⟨code, m₁, hchar, -, rfl⟩ := h
      obtain ⟨t, hread, rfl⟩ := Exec.readChar_cases hchar
      show some ((ofMachine m).receive.2.setRegister .r0 (ofMachine m).receive.1) = _
      rw [receive_of_read hread, ← ofMachine_setRegister]
      rfl
  | out =>
      rw [Trap.run_out] at h
      cases h
      exact congrArg some (ofMachine_withTerminal m (Terminal.input_writeAll _ _).1).symm
  | puts =>
      rw [Trap.run_puts, Exec.bind_finish_eq_ok] at h
      obtain ⟨words, m₁, hstring, -, rfl⟩ := h
      obtain ⟨-, rfl⟩ := Exec.string_cases hstring
      exact congrArg some (ofMachine_withTerminal m₁ (Terminal.input_writeAll _ _).1).symm
  | readEcho =>
      rw [Trap.run_readEcho, Exec.bind_finish_eq_ok] at h
      obtain ⟨code, m₁, hchar, -, rfl⟩ := h
      obtain ⟨t, hread, rfl⟩ := Exec.readChar_cases hchar
      show some ((ofMachine m).receive.2.setRegister .r0 (ofMachine m).receive.1) = _
      rw [receive_of_read hread, ofMachine_setRegister,
        ofMachine_withTerminal _ (Terminal.input_writeAll _ _).1]
  | putsp =>
      rw [Trap.run_putsp, Exec.bind_finish_eq_ok] at h
      obtain ⟨words, m₁, hstring, -, rfl⟩ := h
      obtain ⟨-, rfl⟩ := Exec.string_cases hstring
      exact congrArg some (ofMachine_withTerminal m₁ (Terminal.input_writeAll _ _).1).symm
  | halt =>
      cases h
      rfl

/-- **Execution refines the architecture's.**  Where a decoded word is carried out, the machine
afterwards, jump included, is the one that the architecture gives for the word. -/
theorem execute_of_perform {w : Word} {target : Option Int}
    (h : (decode w.toNat).perform w.opcode m = .ok target m') :
    (ofMachine m).execute (Operation.ofWord w) = some (ofMachine (m'.jumpTo target)) := by
  rw [ofWord_eq]
  cases hop : w.opcode with
  | add =>
      rw [hop, Instruction.perform_add] at h
      cases h
      simp only [execute, Machine.jumpTo, ofMachine_setResult, operand_eq, Instruction.dr,
        Instruction.sr1, registerAt_eq]
      rfl
  | and =>
      rw [hop, Instruction.perform_and] at h
      cases h
      simp only [execute, Machine.jumpTo, ofMachine_setResult, operand_eq, Instruction.dr,
        Instruction.sr1, registerAt_eq]
      rfl
  | not =>
      rw [hop, Instruction.perform_not] at h
      cases h
      simp only [execute, Machine.jumpTo, ofMachine_setResult, Instruction.dr, Instruction.sr1,
        registerAt_eq]
      rfl
  | br =>
      rw [hop, Instruction.perform_br] at h
      cases h
      have hcond : m.processor.cond = (ofMachine m).cond := rfl
      rw [Instruction.nzp_decode, execute, hcond]
      by_cases hmask : w.extractLsb' 9 3 &&& (ofMachine m).cond = 0
      · rw [if_pos hmask, if_pos hmask]
        rfl
      · rw [if_neg hmask, if_neg hmask, ofMachine_jump, relative_eq]
  | jmp =>
      rw [hop, Instruction.perform_jmp] at h
      cases h
      rw [ofMachine_jump, Instruction.baseR, registerAt_eq, Word.ofInt_toNat]
      rfl
  | jsr =>
      rw [hop, Instruction.perform_jsr] at h
      cases h
      rw [ofMachine_jump, ofMachine_setRegister, Instruction.longFlag_decode]
      cases w.getLsbD 11 with
      | true =>
          simp only [if_true, relative_long_eq]
          rfl
      | false =>
          simp only [Bool.false_eq_true, if_false, Int.add_zero, Instruction.baseR, registerAt_eq,
            Word.ofInt_toNat]
          rfl
  | ld =>
      rw [hop, Instruction.perform_ld, Exec.bind_finish_eq_ok] at h
      obtain ⟨v, m₁, hload, rfl, rfl⟩ := h
      have hread := read_of_load hload
      rw [relative_eq] at hread
      simp only [execute, hread, Machine.jumpTo, ofMachine_setResult, Instruction.dr,
        registerAt_eq]
  | ldi =>
      rw [hop, Instruction.perform_ldi, Exec.bind_eq_ok] at h
      obtain ⟨pointer, m₁, hload, h⟩ := h
      rw [Exec.bind_finish_eq_ok] at h
      obtain ⟨v, m₂, hload', rfl, rfl⟩ := h
      have hread := read_of_load hload
      have hread' := read_of_load hload'
      rw [relative_eq] at hread
      rw [Word.ofInt_toNat] at hread'
      simp only [execute, hread, hread', Machine.jumpTo, ofMachine_setResult, Instruction.dr,
        registerAt_eq]
  | ldr =>
      rw [hop, Instruction.perform_ldr, Exec.bind_finish_eq_ok] at h
      obtain ⟨v, m₁, hload, rfl, rfl⟩ := h
      have hread := read_of_load hload
      rw [indexed_eq] at hread
      simp only [execute, hread, Machine.jumpTo, ofMachine_setResult, Instruction.dr,
        registerAt_eq]
  | lea =>
      rw [hop, Instruction.perform_lea] at h
      cases h
      simp only [execute, Machine.jumpTo, ofMachine_setResult, relative_eq, Instruction.dr,
        registerAt_eq]
  | st =>
      rw [hop, Instruction.perform_st] at h
      cases h
      simp only [execute, Machine.jumpTo, ofMachine_store, relative_eq, Instruction.sr,
        registerAt_eq]
      rfl
  | sti =>
      rw [hop, Instruction.perform_sti, Exec.bind_finish_eq_ok] at h
      obtain ⟨pointer, m₁, hload, rfl, rfl⟩ := h
      have hread := read_of_load hload
      rw [relative_eq] at hread
      -- a read changes no register
      have hregister : m₁.processor.register (registerAt w 9)
          = m.processor.register (registerAt w 9) := by rw [Exec.processor_load hload]
      simp only [execute, hread, Machine.jumpTo, ofMachine_store, Word.ofInt_toNat,
        Instruction.sr, registerAt_eq, hregister]
      rfl
  | str =>
      rw [hop, Instruction.perform_str] at h
      cases h
      simp only [execute, Machine.jumpTo, ofMachine_store, indexed_eq, Instruction.sr,
        registerAt_eq]
      rfl
  | rti =>
      rw [hop, Instruction.perform_rti] at h
      cases h
  | res =>
      rw [hop, Instruction.perform_res] at h
      cases h
  | trap =>
      rw [hop] at h
      obtain ⟨rfl, routine, hv, hrun⟩ := Instruction.trap_cases h
      rw [Instruction.trapVector_decode] at hv
      exact trap_of_run hv hrun

/-- **Refinement.**  Whatever cycle of the machine is completed, in whatever state the machine was,
it fetched the word that the architecture reads, and it is the architecture's step: registers,
program counter, flags, status, memory and remaining input afterwards are those that the step
gives. -/
theorem step_of_cycle {instructions : InstructionSet} {w : Word}
    (h : Exec.cycle instructions m = .ok w m') :
    w = ((ofMachine m).read (ofMachine m).pc).1 ∧
      (ofMachine m).step = some (ofMachine m') := by
  obtain ⟨hpc, rfl, -, target, m₁, hperform, rfl⟩ := Exec.cycle_ok_cases h
  have hpc' : (ofMachine m).pc ≠ 0xFE00 := hpc
  have hread : (ofMachine m).read (ofMachine m).pc = (m.current, ofMachine m) := by
    rw [read, if_neg hpc']
    rfl
  rw [step, hread]
  exact ⟨rfl, execute_of_perform hperform⟩

/-- A machine about to read indirectly, with a pointer to the keyboard status register and a
character of more than sixteen bits waiting. -/
def polling : Machine where
  processor := .reset 0x3000
  memory := (Memory.empty.load 0x3000 [0xA001, 0, 0xFE00]).2
  terminal := .buffer [0x1F600] .sentinel

theorem step_of_cycle_polling :
    ∃ m', Exec.cycle .complete polling = .ok 0xA001 m' ∧
      (ofMachine polling).step = some (ofMachine m') ∧
      m'.processor.register .r0 = 0x8000 ∧ m'.memory.peek 0xFE02 = 0xF600 := by
  have hcycle : Exec.cycle .complete polling = .ok 0xA001 _ := rfl
  exact ⟨_, hcycle, (step_of_cycle hcycle).2, by decide, by decide⟩

end State

end LittleComputer.Architecture
