import LittleComputer.Proofs.Invariants

/-!
# What a stopped cycle leaves

A cycle stops while it fetches its word, or while it carries the word out.  In neither case has it
done anything that shows: at most it has moved past the instruction and has asked the terminal for a
character.

* `Opcode.readers`, `Word.TakesCharacter` — the instructions that can ask for a character.
* `Exec.processor_of_fetch`, `Exec.terminal_of_fetch` — what a completed fetch changes outside
  memory.
* `Instruction.processor_of_stops`, `Instruction.terminal_of_stops` — an instruction that stops
  leaves the processor alone and asks for at most one character, in vain.
* `Exec.processor_of_cycle_error` — **registers, flags and status are those from before**; the
  program counter and the instruction in hand tell whether the word was fetched.
* `Exec.pending_of_cycle_error` — a character is taken only by a fetch from the keyboard status
  register.
* `Exec.written_of_cycle_error`, `Exec.output_of_cycle_error` — **nothing has been written**.
-/

namespace LittleComputer

/-! ## Instructions that ask for characters -/

/-- The opcodes whose instructions read memory. -/
def Opcode.readers : List Opcode := [ld, ldi, ldr, sti]

/-- The word is one of the two traps that take a character. -/
def Word.TakesCharacter (w : Word) : Prop :=
  w.extractLsb' 12 4 = 15#4 ∧ (w.extractLsb' 0 8 = 0x20#8 ∨ w.extractLsb' 0 8 = 0x23#8)

theorem Word.takesCharacter_iff (w : Word) :
    w.TakesCharacter ↔ w.opcode = .trap ∧
      (Trap.ofVector? (decode w.toNat).trapVector = some .getc ∨
        Trap.ofVector? (decode w.toNat).trapVector = some .readEcho) := by
  rw [TakesCharacter, opcode_eq_trap_iff, Trap.ofVector?_eq_some_iff, Trap.ofVector?_eq_some_iff,
    Instruction.trapVector_decode]
  refine and_congr_right fun _ => or_congr ?_ ?_
  · exact BitVec.toNat_inj.symm
  · exact BitVec.toNat_inj.symm

/-! ## Fetching -/

namespace Exec

variable {m m' : Machine} {w : Word}

theorem processor_of_fetch (h : fetch m = .ok w m') :
    m'.processor = { m.processor with pc := m.processor.pc + 1, ir := some w.toNat } := by
  obtain ⟨-, -, rfl⟩ | ⟨-, -, code, t, -, rfl⟩ := fetch_cases h <;> rfl

/-- A fetch uses the terminal only at the keyboard status register. -/
theorem terminal_of_fetch (h : fetch m = .ok w m') :
    (m.processor.pc ≠ Memory.keyboardStatus ∧ m'.terminal = m.terminal) ∨
      (m.processor.pc = Memory.keyboardStatus ∧
        ∃ code, m.terminal.read = (.ok code, m'.terminal)) := by
  obtain ⟨hpc, -, rfl⟩ | ⟨hpc, -, code, t, hread, rfl⟩ := fetch_cases h
  · exact .inl ⟨hpc, rfl⟩
  · exact .inr ⟨hpc, code, hread⟩

end Exec

/-! ## Carrying out -/

namespace Instruction

variable {i : Instruction} {op : Opcode} {m m' : Machine} {e : Stop}

theorem processor_of_stops (h : i.Stops op m e m') : m'.processor = m.processor := by
  cases h <;> rfl

/-- The terminal has not been used, or it is what stopped the instruction. -/
theorem terminal_of_stops (h : i.Stops op m e m') :
    m'.terminal = m.terminal ∨ m.terminal.read = (.error e, m'.terminal) := by
  cases h with
  | input _ _ hread => exact .inr hread
  | keyboard _ hread => exact .inr hread
  | unused _ => exact .inl rfl
  | unknownVector _ _ => exact .inl rfl
  | endless _ _ _ => exact .inl rfl

/-- It has lost no character: where it was stopped for want of one, there was none. -/
theorem pending_of_stops (h : i.Stops op m e m') :
    m'.terminal.pending = m.terminal.pending := by
  obtain hsame | hread := terminal_of_stops h
  · rw [hsame]
  · have hpending := m.terminal.pending_read
    rw [hread, (Terminal.read_error_cases hread).1] at hpending
    rw [(Terminal.read_error_cases hread).1]
    exact hpending

end Instruction

/-! ## The whole cycle -/

namespace Exec

variable {instructions : InstructionSet} {m m' : Machine} {e : Stop}

/-- **How far a cycle has come that stops.**  The fetch found no character, and there is no
instruction in hand; or the fetched word is in hand, and the program counter has passed it. -/
theorem processor_of_cycle_error (h : cycle instructions m = .error e m') :
    (fetch m = .error e m' ∧ m'.processor = { m.processor with ir := none }) ∨
      ∃ w m₁, fetch m = .ok w m₁ ∧
        m'.processor = { m.processor with pc := m.processor.pc + 1, ir := some w.toNat } ∧
        (instructions w.opcode = true →
          (decode w.toNat).Stops w.opcode m₁.resetCodes e m') := by
  obtain hfetch | ⟨w, m₁, hfetch, hexec⟩ := cycle_eq_error_iff.1 h
  · obtain ⟨-, t, -, rfl⟩ := fetch_error_cases hfetch
    exact .inl ⟨hfetch, rfl⟩
  · refine .inr ⟨w, m₁, hfetch, ?_⟩
    rw [← processor_of_fetch hfetch]
    rw [Instruction.execute_decode] at hexec
    split at hexec
    · have hstops := Instruction.stops_of_perform hexec
      exact ⟨(Instruction.processor_of_stops hstops).trans rfl, fun _ => hstops⟩
    · rename_i hlacks
      cases hexec
      exact ⟨rfl, fun hset => absurd hset hlacks⟩

/-- What is left where a cycle stops for want of a character. -/
theorem exhausted_of_cycle_error (h : cycle instructions m = .error (.fault .inputUnderflow) m') :
    m'.terminal.pending = [] ∧ m'.terminal.atEnd = .underflow := by
  have hread : ∀ t : Terminal, t.read = (.error (.fault .inputUnderflow), m'.terminal) →
      m'.terminal.pending = [] ∧ m'.terminal.atEnd = .underflow := by
    intro t hread
    have hpending := t.pending_read
    have hpolicy := t.atEnd_read
    rw [hread] at hpending hpolicy
    obtain ⟨hempty, ⟨hunderflow, -⟩ | ⟨-, hstop⟩⟩ := Terminal.read_error_cases hread
    · exact ⟨by rw [hpending, hempty, List.tail_nil], hpolicy.trans hunderflow⟩
    · cases hstop
  obtain ⟨-, t, ht, rfl⟩ | ⟨w, m₁, -, ⟨-, hcause, -⟩ | ⟨-, hstops⟩⟩ := cycle_error_cases h
  · exact hread _ ht
  · cases hcause
  · cases hstops with
    | input _ _ ht => exact hread _ ht
    | keyboard _ ht => exact hread _ ht

/-- A cycle that stops has taken a character only if it fetched from the keyboard status
register. -/
theorem pending_of_cycle_error (h : cycle instructions m = .error e m') :
    m'.terminal.pending =
      if m.processor.pc = Memory.keyboardStatus then m.terminal.pending.tail
      else m.terminal.pending := by
  obtain ⟨hpc, t, hread, rfl⟩ | ⟨w, m₁, hfetch, hstop⟩ := cycle_error_cases h
  · rw [if_pos hpc, ← Terminal.pending_read, hread]
    rfl
  · have hfetched : m'.terminal.pending = m₁.terminal.pending := by
      obtain ⟨-, -, rfl⟩ | ⟨-, hstops⟩ := hstop
      · rfl
      · rw [Instruction.pending_of_stops hstops]
        rfl
    obtain ⟨hpc, hsame⟩ | ⟨hpc, code, hread⟩ := terminal_of_fetch hfetch
    · rw [if_neg hpc, hfetched, hsame]
    · rw [if_pos hpc, hfetched, ← Terminal.pending_read, hread]

/-- **A cycle that stops has written nothing.** -/
theorem written_of_cycle_error (h : cycle instructions m = .error e m') :
    m'.terminal.written = m.terminal.written := by
  obtain ⟨-, t, hread, rfl⟩ | ⟨w, m₁, hfetch, hstop⟩ := cycle_error_cases h
  · rw [← m.terminal.written_read, hread]
    rfl
  · have hfetched : m₁.terminal.written = m.terminal.written := by
      obtain ⟨-, hsame⟩ | ⟨-, code, hread⟩ := terminal_of_fetch hfetch
      · rw [hsame]
      · rw [← m.terminal.written_read, hread]
    rw [← hfetched]
    obtain ⟨-, -, rfl⟩ | ⟨-, hstops⟩ := hstop
    · rfl
    · obtain hsame | hread := Instruction.terminal_of_stops hstops
      · rw [hsame]
        rfl
      · have hleft := m₁.resetCodes.terminal.written_read
        rw [hread] at hleft
        exact hleft

/-- So it has not added to the output either. -/
theorem output_of_cycle_error (h : cycle instructions m = .error e m') :
    m'.terminal.output = m.terminal.output := by
  have hdevice := keeps_cycle (Machine.closed_device m.terminal.device) instructions m rfl
  rw [left_of_error h] at hdevice
  rw [Terminal.output, Terminal.output, hdevice, written_of_cycle_error h]

end Exec

end LittleComputer
