import LittleComputer.Proofs.Execution
import LittleComputer.Proofs.Fields

/-!
# A turn of the machine

What one cycle can come to: an instruction is completed, or something stops it.

* `Word.opcode`, `Instruction.execute_decode` — every fetched word has one of the sixteen opcodes.
* `Exec.fetch_cases` — a fetch reads a cell, or takes a character through the keyboard registers and
  finds the word that the status register holds then.
* `Exec.cycle_eq_ok_iff` — a completed cycle fetched an ordinary cell and carried it out.
* `Instruction.Stops`, `Instruction.stops_of_perform` — the ways in which an instruction can stop.
* `Exec.cycle_error_cases` — the ways in which a cycle can stop.
* `Exec.cycle_of_perform`, `Exec.cycle_of_perform_error` — where the instruction at the program
  counter is known, so is the cycle; `Exec.cycle_keyboard_ok`, `Exec.cycle_keyboard_error` — from
  the keyboard status register there is none to carry out.
* `Exec.cycle_congr` — what was in hand before a cycle makes no difference to it.
* `Exec.cycle_endless_iff` — it never ends exactly where a string trap meets a memory without a
  zero word.
-/

namespace LittleComputer

/-! ## Opcodes and vectors -/

/-- The opcode of a word: its top four bits number the sixteen of them. -/
def Word.opcode (w : Word) : Opcode := Opcode.all.get ⟨_, (w.extractLsb' 12 4).isLt⟩

theorem ofCode?_opcode_decode (w : Word) :
    Opcode.ofCode? (decode w.toNat).opcode = some w.opcode := by
  have hlt : (w.extractLsb' 12 4).toNat < Opcode.all.length := (w.extractLsb' 12 4).isLt
  rw [Instruction.opcode_decode, Opcode.ofCode?, if_pos (by omega), Int.toNat_natCast,
    List.getElem?_eq_getElem hlt]
  rfl

namespace Instruction

/-- A decoded word has an opcode; whether it can be carried out depends on the instruction set. -/
theorem execute_decode (instructions : InstructionSet) (w : Word) :
    (decode w.toNat).execute instructions =
      if instructions w.opcode then (decode w.toNat).perform w.opcode
      else Exec.fail (.badOpcode (decode w.toNat).opcode) := by
  unfold execute
  rw [ofCode?_opcode_decode]

end Instruction

namespace Trap

/-- The vector of a routine. -/
def vector : Trap → Nat
  | getc => 0x20
  | out => 0x21
  | puts => 0x22
  | readEcho => 0x23
  | putsp => 0x24
  | halt => 0x25

theorem ofVector?_eq_some_iff (n : Nat) (routine : Trap) :
    ofVector? n = some routine ↔ n = routine.vector := by
  constructor
  · intro h
    unfold ofVector? at h
    split at h <;> cases h <;> rfl
  · rintro rfl
    cases routine <;> rfl

end Trap

namespace Memory

theorem zeroFrom?_eq_none_iff (m : Memory) (address : Word) (start fuel : Nat) :
    m.zeroFrom? address start fuel = none ↔
      ∀ i, start ≤ i → i < start + fuel → m.peek (address + BitVec.ofNat 16 i) ≠ 0 := by
  induction fuel generalizing start with
  | zero =>
      simp only [zeroFrom?, true_iff]
      intro i h₁ h₂
      omega
  | succ fuel ih =>
      rw [zeroFrom?]
      split
      · rename_i hzero
        simp only [reduceCtorEq, false_iff]
        intro h
        exact h start (Nat.le_refl _) (by omega) hzero
      · rename_i hfirst
        rw [ih]
        constructor
        · intro h i h₁ h₂
          by_cases hi : i = start
          · rwa [hi]
          · exact h i (by omega) (by omega)
        · intro h i h₁ h₂
          exact h i (by omega) (by omega)

/-- A string has no end exactly if no cell of memory is zero, wherever it begins. -/
theorem string?_eq_none_iff (m : Memory) (address : Word) :
    m.string? address = none ↔ ∀ a, m.peek a ≠ 0 := by
  rw [string?, Option.map_eq_none_iff, zeroFrom?_eq_none_iff]
  constructor
  · intro h a
    have hreach : address + BitVec.ofNat 16 (a - address).toNat = a := by
      rw [BitVec.ofNat_toNat, BitVec.setWidth_eq, BitVec.add_comm, BitVec.sub_add_cancel]
    have hcell := h (a - address).toNat (Nat.zero_le _) (by
      have := (a - address).isLt
      simp only [wordCount]
      omega)
    rwa [hreach] at hcell
  · intro h i _ _
    exact h _

end Memory

namespace Terminal

/-- Writing leaves the input and the policy alone. -/
theorem input_writeAll (t : Terminal) (codes : List Int) :
    (t.writeAll codes).pending = t.pending ∧ (t.writeAll codes).atEnd = t.atEnd := by
  induction codes generalizing t with
  | nil => exact ⟨rfl, rfl⟩
  | cons code rest ih => exact ih (t.write code)

/-- What a read that gives a character has done. -/
theorem read_ok_cases {t t' : Terminal} {code : Nat} (h : t.read = (.ok code, t')) :
    code = t.pending.headD endOfInputCode ∧ t'.pending = t.pending.tail ∧
      (t.pending = [] → t.atEnd = .sentinel) := by
  unfold read at h
  split at h
  · rename_i c rest hp
    cases h
    simp [hp]
  · rename_i hp
    dsimp only at h
    split at h
    · rename_i hend
      cases h
      simp only [record] at hend ⊢
      simp [hp, hend]
    · cases h
    · cases h

/-- A read gives none only at the end of the input, and then the policy says how it stops. -/
theorem read_error_cases {t t' : Terminal} {e : Stop} (h : t.read = (.error e, t')) :
    t.pending = [] ∧
      ((t.atEnd = .underflow ∧ e = .fault .inputUnderflow) ∨
        (t.atEnd = .interrupt ∧ e = .interrupted)) := by
  unfold read at h
  split at h
  · cases h
  · rename_i hp
    dsimp only at h
    split at h
    · cases h
    · rename_i hend
      cases h
      exact ⟨hp, .inl ⟨hend, rfl⟩⟩
    · rename_i hend
      cases h
      exact ⟨hp, .inr ⟨hend, rfl⟩⟩

end Terminal

/-! ## How an instruction stops -/

namespace Exec

variable {m m' : Machine} {address : Word}

theorem string_cases {words : List Word} (h : string address m = .ok words m') :
    m.memory.string? address = some words ∧ m' = m := by
  rw [string_apply] at h
  split at h
  · rename_i hs
    cases h
    exact ⟨hs, rfl⟩
  · cases h

theorem string_error_cases {e : Stop} (h : string address m = .error e m') :
    e = .endless ∧ m' = m ∧ ∀ a, m.memory.peek a ≠ 0 := by
  rw [string_apply] at h
  split at h
  · cases h
  · rename_i hs
    cases h
    exact ⟨rfl, rfl, (Memory.string?_eq_none_iff _ _).1 hs⟩

end Exec

namespace Instruction

open Exec

/-- `i.Stops op m e m'` : carrying out `i` as an instruction with opcode `op` on the machine `m` stops
with `e` and leaves the machine `m'`. -/
inductive Stops (i : Instruction) (op : Opcode) (m : Machine) : Stop → Machine → Prop where
  /-- A trap routine asks for a character, and the terminal has none. -/
  | input {e : Stop} {t : Terminal} (trap : op = .trap)
      (routine : Trap.ofVector? i.trapVector = some .getc ∨
        Trap.ofVector? i.trapVector = some .readEcho)
      (read : m.terminal.read = (.error e, t)) : Stops i op m e (m.withTerminal t)
  /-- A read comes to the keyboard status register, and the terminal has no character. -/
  | keyboard {e : Stop} {t : Terminal} (reads : op = .ld ∨ op = .ldi ∨ op = .ldr ∨ op = .sti)
      (read : m.terminal.read = (.error e, t)) : Stops i op m e (m.markReady.withTerminal t)
  /-- The machine refuses the instruction. -/
  | unused (refused : op = .rti ∨ op = .res) : Stops i op m (.fault (.unusedOpcode i.mnemonic)) m
  /-- No routine has the vector. -/
  | unknownVector (trap : op = .trap) (unknown : Trap.ofVector? i.trapVector = none) :
      Stops i op m (.fault (.unknownTrapVector i.trapVector)) m
  /-- The string to be written has no end. -/
  | endless (trap : op = .trap)
      (routine : Trap.ofVector? i.trapVector = some .puts ∨
        Trap.ofVector? i.trapVector = some .putsp)
      (noEnd : ∀ a, m.memory.peek a ≠ 0) : Stops i op m .endless m

variable {i : Instruction} {m m' : Machine} {e : Stop}

/-- A trap routine stops for want of a character or of the end of a string. -/
theorem stops_of_run {routine : Trap} (hv : Trap.ofVector? i.trapVector = some routine)
    (h : routine.run m = .error e m') : i.Stops .trap m e m' := by
  cases routine with
  | getc =>
      rw [Trap.run_getc, bind_finish_eq_error] at h
      obtain ⟨t, hread, rfl⟩ := readChar_error_cases h
      exact .input rfl (.inl hv) hread
  | out => cases h
  | puts =>
      rw [Trap.run_puts, bind_finish_eq_error] at h
      obtain ⟨rfl, rfl, hcells⟩ := string_error_cases h
      exact .endless rfl (.inl hv) hcells
  | readEcho =>
      rw [Trap.run_readEcho, bind_finish_eq_error] at h
      obtain ⟨t, hread, rfl⟩ := readChar_error_cases h
      exact .input rfl (.inr hv) hread
  | putsp =>
      rw [Trap.run_putsp, bind_finish_eq_error] at h
      obtain ⟨rfl, rfl, hcells⟩ := string_error_cases h
      exact .endless rfl (.inr hv) hcells
  | halt => cases h

/-- **The ways in which an instruction can stop.** -/
theorem stops_of_perform {op : Opcode} (h : i.perform op m = .error e m') : i.Stops op m e m' := by
  cases op with
  | add => rw [perform_add] at h; cases h
  | and => rw [perform_and] at h; cases h
  | not => cases h
  | br => rw [perform_br] at h; cases h
  | jmp => cases h
  | jsr => rw [perform_jsr] at h; cases h
  | lea => cases h
  | st => cases h
  | str => cases h
  | rti => cases h; exact .unused (.inl rfl)
  | res => cases h; exact .unused (.inr rfl)
  | ld =>
      rw [perform_ld, bind_finish_eq_error] at h
      obtain ⟨-, t, hread, rfl⟩ := load_error_cases h
      exact .keyboard (.inl rfl) hread
  | ldr =>
      rw [perform_ldr, bind_finish_eq_error] at h
      obtain ⟨-, t, hread, rfl⟩ := load_error_cases h
      exact .keyboard (.inr (.inr (.inl rfl))) hread
  | sti =>
      rw [perform_sti, bind_finish_eq_error] at h
      obtain ⟨-, t, hread, rfl⟩ := load_error_cases h
      exact .keyboard (.inr (.inr (.inr rfl))) hread
  | ldi =>
      rw [perform_ldi, bind_eq_error] at h
      obtain h | ⟨pointer, m₁, h₁, h⟩ := h
      · obtain ⟨-, t, hread, rfl⟩ := load_error_cases h
        exact .keyboard (.inr (.inl rfl)) hread
      · rw [bind_finish_eq_error] at h
        obtain ⟨hk, t, hread, rfl⟩ := load_error_cases h
        -- a pointer read from the status register points elsewhere
        obtain ⟨-, -, rfl⟩ | ⟨-, rfl, -⟩ := load_cases h₁
        · exact .keyboard (.inr (.inl rfl)) hread
        · exact absurd hk (by decide)
  | trap =>
      cases hv : Trap.ofVector? i.trapVector with
      | none =>
          rw [perform_trap_unknown i m hv] at h
          cases h
          exact .unknownVector rfl hv
      | some routine =>
          rw [perform_trap i m hv, bind_finish_eq_error] at h
          exact stops_of_run hv h

end Instruction

/-! ## Fetching -/

namespace Machine

/-- The word at the program counter. -/
def current (m : Machine) : Word := m.memory.peek m.processor.pc

/-- The machine after the word `w` has been fetched from the program counter. -/
def advance (m : Machine) (w : Word) : Machine :=
  { m with processor := { m.processor with pc := m.processor.pc + 1, ir := some w.toNat } }

/-- The machine with no instruction in hand. -/
def release (m : Machine) : Machine := { m with processor := { m.processor with ir := none } }

/-- The machine with the codes of the terminal reset. -/
def resetCodes (m : Machine) : Machine := m.withTerminal m.terminal.resetCodes

end Machine

namespace Exec

variable {instructions : InstructionSet} {m m' : Machine} {w : Word} {e : Stop}

theorem fetch_apply (m : Machine) :
    fetch m = (load m.processor.pc.toNat >>= fun w => finish w fun m₁ =>
      { m₁ with
        processor := { m₁.processor.jump (m.processor.pc.toNat + 1) with ir := some w.toNat } })
      m.release := by
  simp only [fetch, bind_apply, pc_apply, finish_apply]
  rfl

theorem jump_succ (p : Processor) (a : Word) : p.jump (a.toNat + 1) = { p with pc := a + 1 } := by
  rw [Processor.jump, Word.ofInt_add_one, Word.ofInt_toNat]

/-- **What a fetch that completes has done.** -/
theorem fetch_cases (h : fetch m = .ok w m') :
    (m.processor.pc ≠ Memory.keyboardStatus ∧ w = m.current ∧ m' = m.advance w) ∨
    (m.processor.pc = Memory.keyboardStatus ∧ w = Memory.keyboardReady ∧
      ∃ code t, m.terminal.read = (.ok code, t) ∧ m' = (m.receive code t).advance w) := by
  rw [fetch_apply, bind_finish_eq_ok] at h
  obtain ⟨w', m₁, hload, rfl, rfl⟩ := h
  rw [jump_succ]
  obtain ⟨hpc, rfl, rfl⟩ | ⟨hpc, rfl, code, t, hread, rfl⟩ := load_cases hload
  · rw [Word.ofInt_toNat] at hpc ⊢
    exact .inl ⟨hpc, rfl, rfl⟩
  · rw [Word.ofInt_toNat] at hpc
    exact .inr ⟨hpc, rfl, code, t, hread, rfl⟩

theorem fetch_of_ne (h : m.processor.pc ≠ Memory.keyboardStatus) :
    fetch m = .ok m.current (m.advance m.current) := by
  rw [fetch_apply, bind_apply, load_of_ne _ (by rwa [Word.ofInt_toNat]), Word.ofInt_toNat]
  simp only [finish_apply, jump_succ]
  rfl

/-- From the keyboard status register a fetch takes a character. -/
theorem fetch_keyboard_ok (h : m.processor.pc = Memory.keyboardStatus) {code : Nat} {t : Terminal}
    (hread : m.terminal.read = (.ok code, t)) :
    fetch m = .ok Memory.keyboardReady ((m.receive code t).advance Memory.keyboardReady) := by
  rw [fetch_apply, bind_apply, load_keyboard_ok m.release (by rwa [Word.ofInt_toNat]) hread]
  simp only [finish_apply, jump_succ]
  rfl

/-- Where there is none, it stops. -/
theorem fetch_keyboard_error (h : m.processor.pc = Memory.keyboardStatus) {t : Terminal}
    (hread : m.terminal.read = (.error e, t)) :
    fetch m = .error e (m.release.markReady.withTerminal t) := by
  rw [fetch_apply, bind_apply, load_keyboard_error m.release (by rwa [Word.ofInt_toNat]) hread]

theorem fetch_error_cases (h : fetch m = .error e m') :
    m.processor.pc = Memory.keyboardStatus ∧
      ∃ t, m.terminal.read = (.error e, t) ∧ m' = m.release.markReady.withTerminal t := by
  rw [fetch_apply, bind_finish_eq_error] at h
  obtain ⟨hpc, t, hread, rfl⟩ := load_error_cases h
  rw [Word.ofInt_toNat] at hpc
  exact ⟨hpc, t, hread, rfl⟩

/-! ## The whole cycle -/

theorem executeAndJump_apply (i : Instruction) (m : Machine) :
    executeAndJump instructions i m =
      (i.execute instructions >>= fun target => finish target (·.jumpTo target)) m := by
  simp only [executeAndJump, bind_apply]
  cases i.execute instructions m with
  | error e m₁ => rfl
  | ok target m₁ => cases target <;> rfl

/-- A cycle is completed if its fetch and its execution are. -/
theorem cycle_eq_ok_iff :
    cycle instructions m = .ok w m' ↔ ∃ m₁ target m₂, fetch m = .ok w m₁ ∧
      (decode w.toNat).execute instructions m₁.resetCodes = .ok target m₂ ∧
      m' = m₂.jumpTo target := by
  simp only [cycle, bind_eq_ok, executeAndJump_apply, finish_apply, pure_apply]
  constructor
  · rintro ⟨w', m₁, hfetch, u, m₂, hreset, target, m₃, ⟨target', m₄, hexec, hjump⟩, hpure⟩
    cases hreset
    cases hjump
    cases hpure
    exact ⟨m₁, target, m₄, hfetch, hexec, rfl⟩
  · rintro ⟨m₁, target, m₂, hfetch, hexec, rfl⟩
    exact ⟨w, m₁, hfetch, (), m₁.resetCodes, rfl, target, _, ⟨target, m₂, hexec, rfl⟩, rfl⟩

/-- A cycle stops where its fetch or its execution does. -/
theorem cycle_eq_error_iff :
    cycle instructions m = .error e m' ↔ fetch m = .error e m' ∨
      ∃ w m₁, fetch m = .ok w m₁ ∧
        (decode w.toNat).execute instructions m₁.resetCodes = .error e m' := by
  simp only [cycle, bind_eq_error, executeAndJump_apply, finish_apply, pure_apply]
  constructor
  · rintro (hfetch | ⟨w, m₁, hfetch, hreset | ⟨u, m₂, hreset, hexec | h⟩⟩)
    · exact .inl hfetch
    · cases hreset
    · cases hreset
      obtain hexec | ⟨target, m₃, -, hjump⟩ := hexec
      · exact .inr ⟨w, m₁, hfetch, hexec⟩
      · cases hjump
    · obtain ⟨target, m₃, -, hpure⟩ := h
      cases hpure
  · rintro (hfetch | ⟨w, m₁, hfetch, hexec⟩)
    · exact .inl hfetch
    · exact .inr ⟨w, m₁, hfetch, .inr ⟨(), m₁.resetCodes, rfl, .inl (.inl hexec)⟩⟩

/-- The word behind the status register is refused, so nothing that was fetched from there is ever
carried out. -/
theorem opcode_keyboardReady : Memory.keyboardReady.opcode = .rti := by decide

/-- **A completed cycle.**  The instruction came from an ordinary cell, the instruction set has its
opcode, and the machine afterwards is the one that carrying it out and jumping leaves. -/
theorem cycle_ok_cases (h : cycle instructions m = .ok w m') :
    m.processor.pc ≠ Memory.keyboardStatus ∧ w = m.current ∧
      instructions w.opcode = true ∧ ∃ target m₁,
        (decode w.toNat).perform w.opcode (m.advance w).resetCodes = .ok target m₁ ∧
        m' = m₁.jumpTo target := by
  obtain ⟨m₁, target, m₂, hfetch, hexec, rfl⟩ := cycle_eq_ok_iff.1 h
  rw [Instruction.execute_decode] at hexec
  split at hexec
  · rename_i hset
    obtain ⟨hpc, rfl, rfl⟩ | ⟨hpc, rfl, -⟩ := fetch_cases hfetch
    · exact ⟨hpc, rfl, hset, target, m₂, hexec, rfl⟩
    · rw [opcode_keyboardReady] at hexec
      cases hexec
  · cases hexec

/-- **The ways in which a cycle can stop.**  The fetch finds no character, the instruction set lacks
the opcode, or the instruction itself stops. -/
theorem cycle_error_cases (h : cycle instructions m = .error e m') :
    (m.processor.pc = Memory.keyboardStatus ∧
      ∃ t, m.terminal.read = (.error e, t) ∧ m' = m.release.markReady.withTerminal t) ∨
    ∃ w m₁, fetch m = .ok w m₁ ∧
      ((instructions w.opcode = false ∧ e = .fault (.badOpcode (decode w.toNat).opcode) ∧
        m' = m₁.resetCodes) ∨
      (instructions w.opcode = true ∧
        (decode w.toNat).Stops w.opcode m₁.resetCodes e m')) := by
  obtain hfetch | ⟨w, m₁, hfetch, hexec⟩ := cycle_eq_error_iff.1 h
  · exact .inl (fetch_error_cases hfetch)
  · rw [Instruction.execute_decode] at hexec
    split at hexec
    · rename_i hset
      exact .inr ⟨w, m₁, hfetch, .inr ⟨hset, Instruction.stops_of_perform hexec⟩⟩
    · rename_i hset
      cases hexec
      exact .inr ⟨w, m₁, hfetch, .inl ⟨Bool.eq_false_iff.2 hset, rfl, rfl⟩⟩

/-! ## Following a cycle -/

variable {op : Opcode}

/-- **A cycle does what its instruction does** and jumps. -/
theorem cycle_of_perform {target : Option Int} (hpc : m.processor.pc ≠ Memory.keyboardStatus)
    (hw : m.current = w) (hop : w.opcode = op) (hset : instructions op = true)
    (h : (decode w.toNat).perform op (m.advance w).resetCodes = .ok target m') :
    cycle instructions m = .ok w (m'.jumpTo target) := by
  subst hw hop
  refine cycle_eq_ok_iff.2 ⟨_, target, m', fetch_of_ne hpc, ?_, rfl⟩
  rw [Instruction.execute_decode, if_pos hset]
  exact h

/-- It stops where its instruction stops. -/
theorem cycle_of_perform_error {e : Stop} (hpc : m.processor.pc ≠ Memory.keyboardStatus)
    (hw : m.current = w) (hop : w.opcode = op) (hset : instructions op = true)
    (h : (decode w.toNat).perform op (m.advance w).resetCodes = .error e m') :
    cycle instructions m = .error e m' := by
  subst hw hop
  refine cycle_eq_error_iff.2 (.inr ⟨_, _, fetch_of_ne hpc, ?_⟩)
  rw [Instruction.execute_decode, if_pos hset]
  exact h

/-- The word behind the keyboard status register is refused, and a character is lost. -/
theorem cycle_keyboard_ok (hpc : m.processor.pc = Memory.keyboardStatus)
    (hset : instructions .rti = true) {code : Nat} {t : Terminal}
    (hread : m.terminal.read = (.ok code, t)) :
    cycle instructions m = .error (.fault (.unusedOpcode "RTI"))
      ((m.receive code t).advance Memory.keyboardReady).resetCodes := by
  refine cycle_eq_error_iff.2 (.inr ⟨_, _, fetch_keyboard_ok hpc hread, ?_⟩)
  rw [Instruction.execute_decode, opcode_keyboardReady, if_pos hset]
  rfl

/-- Where there is none, the fetch itself stops. -/
theorem cycle_keyboard_error (hpc : m.processor.pc = Memory.keyboardStatus) {e : Stop}
    {t : Terminal} (hread : m.terminal.read = (.error e, t)) :
    cycle instructions m = .error e (m.release.markReady.withTerminal t) :=
  cycle_eq_error_iff.2 (.inl (fetch_keyboard_error hpc hread))

/-- The first thing that a cycle does is to forget what was in hand. -/
theorem cycle_release (m : Machine) : cycle instructions m.release = cycle instructions m := by
  have hfetch : fetch m.release = fetch m := by
    rw [fetch_apply, fetch_apply]
    rfl
  simp only [cycle, bind_apply, hfetch]

/-- So it makes no difference. -/
theorem cycle_congr (h : m.release = m'.release) :
    cycle instructions m = cycle instructions m' := by
  rw [← cycle_release m, h, cycle_release]

end Exec

/-! ## A cycle without an end -/

theorem Word.opcode_eq_trap_iff (w : Word) : w.opcode = .trap ↔ w.extractLsb' 12 4 = 0xF#4 := by
  have h : ∀ code : BitVec 4, Opcode.all.get ⟨_, code.isLt⟩ = .trap ↔ code = 0xF#4 := by decide
  exact h _

/-- The machine is about to write a string, and no cell of its memory is zero. -/
structure Machine.BeforeEndlessString (m : Machine) : Prop where
  /-- The next instruction does not come through the keyboard registers. -/
  ordinary : m.processor.pc ≠ Memory.keyboardStatus
  /-- It is a trap. -/
  trap : m.current.extractLsb' 12 4 = 0xF#4
  /-- Its vector is that of one of the two routines that write strings. -/
  vector : m.current.extractLsb' 0 8 = 0x22#8 ∨ m.current.extractLsb' 0 8 = 0x24#8
  /-- The string has no end. -/
  noZero : ∀ a, m.memory.peek a ≠ 0

namespace Exec

variable {instructions : InstructionSet} {m : Machine}

/-- **A cycle never ends exactly where a string has no end.** -/
theorem cycle_endless_iff :
    (∃ m', cycle instructions m = .error .endless m') ↔
      instructions .trap = true ∧ m.BeforeEndlessString := by
  constructor
  · rintro ⟨m', h⟩
    obtain ⟨-, t, hread, -⟩ | ⟨w, m₁, hfetch, ⟨-, he, -⟩ | ⟨hset, hstop⟩⟩ := cycle_error_cases h
    · obtain ⟨-, ⟨-, he⟩ | ⟨-, he⟩⟩ := Terminal.read_error_cases hread <;> cases he
    · cases he
    · generalize he : Stop.endless = e at hstop
      cases hstop with
      | input _ _ hread =>
          subst he
          obtain ⟨-, ⟨-, he⟩ | ⟨-, he⟩⟩ := Terminal.read_error_cases hread <;> cases he
      | keyboard _ hread =>
          subst he
          obtain ⟨-, ⟨-, he⟩ | ⟨-, he⟩⟩ := Terminal.read_error_cases hread <;> cases he
      | unused _ => cases he
      | unknownVector _ _ => cases he
      | endless htrap hroutine hcells =>
          obtain ⟨hpc, rfl, rfl⟩ | ⟨-, rfl, -⟩ := fetch_cases hfetch
          · rw [htrap] at hset
            rw [Trap.ofVector?_eq_some_iff, Trap.ofVector?_eq_some_iff,
              Instruction.trapVector_decode] at hroutine
            exact ⟨hset, hpc, (Word.opcode_eq_trap_iff _).1 htrap,
              hroutine.imp (BitVec.eq_of_toNat_eq ·) (BitVec.eq_of_toNat_eq ·), hcells⟩
          · rw [opcode_keyboardReady] at htrap
            cases htrap
  · rintro ⟨hset, hm⟩
    have hop := (Word.opcode_eq_trap_iff _).2 hm.trap
    have hcells : ∀ address : Word,
        (m.advance m.current).resetCodes.memory.string? address = none :=
      fun address => (Memory.string?_eq_none_iff m.memory address).2 hm.noZero
    refine ⟨(m.advance m.current).resetCodes,
      cycle_of_perform_error hm.ordinary rfl hop hset ?_⟩
    obtain hv | hv := hm.vector
    · have hroutine : Trap.ofVector? (decode m.current.toNat).trapVector = some .puts := by
        rw [Trap.ofVector?_eq_some_iff, Instruction.trapVector_decode, hv]
        rfl
      rw [Instruction.perform_trap _ _ hroutine, bind_apply, Trap.run_puts, bind_apply,
        string_apply, hcells]
    · have hroutine : Trap.ofVector? (decode m.current.toNat).trapVector = some .putsp := by
        rw [Trap.ofVector?_eq_some_iff, Instruction.trapVector_decode, hv]
        rfl
      rw [Instruction.perform_trap _ _ hroutine, bind_apply, Trap.run_putsp, bind_apply,
        string_apply, hcells]

end Exec

end LittleComputer
