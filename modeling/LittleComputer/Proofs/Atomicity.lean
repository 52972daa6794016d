import LittleComputer.Proofs.Stops

/-!
# Faults leave nothing half done

Some instructions have several effects, and a fault can come between them: an indirect read reads
twice, a trap reads, writes and sets a register, and a read through the keyboard registers marks the
keyboard ready before it asks for a character.  Yet an instruction that faults has done nothing, but
for that mark.

* `Terminal.Idle`, `Terminal.idle_of_read_error` — a read that gives no character takes none.
* `Instruction.addresses`, `Instruction.mem_addresses_of_perform` — the addresses that an
  instruction reads; where such a read stops it, the keyboard status register is among them.
* `Instruction.memory_of_stops` — which cells an instruction that stops has changed.
* `Instruction.execute_atomic` — **an instruction that faults has changed nothing**, except that the
  keyboard may have been found ready.
-/

namespace LittleComputer

/-! ## Terminals that have not been used -/

namespace Terminal

/-- From `t` to `t'` nothing has gone in or out. -/
structure Idle (t t' : Terminal) : Prop where
  /-- The input is where it was. -/
  pending : t'.pending = t.pending
  /-- No character has been taken. -/
  received : t'.received = t.received
  /-- Nothing has been written, -/
  written : t'.written = t.written
  /-- nothing has been added to the output, -/
  output : t'.output = t.output
  /-- and nothing has been pushed out. -/
  flushCount : t'.flushCount = t.flushCount

theorem Idle.refl (t : Terminal) : t.Idle t := ⟨rfl, rfl, rfl, rfl, rfl⟩

/-- A read that gives no character takes none. -/
theorem idle_of_read_error {t t' : Terminal} {e : Stop} (h : t.read = (.error e, t')) :
    t.Idle t' := by
  have hempty : t.pending = [] := (read_error_cases h).1
  have hpending : t'.pending = t.pending := by
    have hleft := t.pending_read
    rw [h, hempty] at hleft
    exact hleft.trans hempty.symm
  have hreceived := t.received_append_pending_read
  have hwritten := t.written_read
  have houtput := t.output_read
  have hflushes := t.flushCount_read
  rw [h] at hreceived hwritten houtput hflushes
  dsimp only at hreceived
  rw [hpending] at hreceived
  exact ⟨hpending, List.append_cancel_right hreceived, hwritten, houtput, hflushes⟩

end Terminal

namespace Instruction

open Exec

variable {i : Instruction} {op : Opcode} {m m' : Machine} {e : Stop}

theorem idle_of_stops (h : i.Stops op m e m') : m.terminal.Idle m'.terminal := by
  obtain hsame | hread := terminal_of_stops h
  · rw [hsame]
    exact .refl _
  · exact Terminal.idle_of_read_error hread

/-! ## Addresses -/

/-- The addresses that an instruction reads on a machine: pointers, and what they lead to. -/
def addresses (i : Instruction) (m : Machine) : List Word :=
  let relative := Word.ofInt (m.processor.pc.toNat + i.pcOffset9)
  match Opcode.ofCode? i.opcode with
  | some .ld | some .sti => [relative]
  | some .ldi => [relative, m.memory.peek relative]
  | some .ldr => [Word.ofInt ((m.processor.register i.baseR).toNat + i.offset6)]
  | _ => []

/-- An instruction that reads is stopped only at the keyboard status register. -/
theorem mem_addresses_of_perform (hop : Opcode.ofCode? i.opcode = some op)
    (hreads : op ∈ Opcode.readers) (h : i.perform op m = .error e m') :
    Memory.keyboardStatus ∈ i.addresses m := by
  cases op with
  | ld =>
      rw [perform_ld, bind_finish_eq_error] at h
      simp only [addresses, hop, (load_error_cases h).1, List.mem_singleton]
  | ldr =>
      rw [perform_ldr, bind_finish_eq_error] at h
      simp only [addresses, hop, (load_error_cases h).1, List.mem_singleton]
  | sti =>
      rw [perform_sti, bind_finish_eq_error] at h
      simp only [addresses, hop, (load_error_cases h).1, List.mem_singleton]
  | ldi =>
      rw [perform_ldi, bind_eq_error] at h
      simp only [addresses, hop, List.mem_cons, List.not_mem_nil, or_false]
      obtain h | ⟨pointer, m₁, hpointer, h⟩ := h
      · exact .inl (load_error_cases h).1.symm
      · rw [bind_finish_eq_error] at h
        have hk := (load_error_cases h).1
        rw [Word.ofInt_toNat] at hk
        obtain ⟨-, rfl, -⟩ | ⟨hrelative, -⟩ := load_cases hpointer
        · exact .inr hk.symm
        · exact .inl hrelative.symm
  | _ => exact absurd hreads (by decide)

/-- Other instructions read nothing. -/
theorem addresses_eq_nil (hop : Opcode.ofCode? i.opcode = some op) (h : op ∉ Opcode.readers)
    (m : Machine) : i.addresses m = [] := by
  cases op with
  | ld | ldi | ldr | sti => exact absurd (by decide) h
  | _ => simp only [addresses, hop]

/-- **What an instruction that stops has changed in memory.**  If it is one that reads, the keyboard
has been found ready, and there was no character; the others have changed nothing. -/
theorem memory_of_stops (h : i.Stops op m e m') :
    (op ∈ Opcode.readers ∧ m.terminal.read = (.error e, m'.terminal) ∧
      m'.memory = m.memory.poke Memory.keyboardStatus Memory.keyboardReady) ∨
    (op ∉ Opcode.readers ∧ m'.memory = m.memory) := by
  cases h with
  | keyboard hreads hread =>
      refine .inl ⟨?_, hread, rfl⟩
      obtain rfl | rfl | rfl | rfl := hreads <;> decide
  | input htrap _ _ => exact .inr ⟨htrap ▸ by decide, rfl⟩
  | unused hrefused =>
      refine .inr ⟨?_, rfl⟩
      obtain rfl | rfl := hrefused <;> decide
  | unknownVector htrap _ => exact .inr ⟨htrap ▸ by decide, rfl⟩
  | endless htrap _ _ => exact .inr ⟨htrap ▸ by decide, rfl⟩

/-! ## Faults -/

/-- **Faults are atomic.**  An instruction that faults, whatever its word and the instruction set,
has left the processor alone, and nothing has gone in or out at the terminal.  Memory is as it was
too, except where a read from the keyboard status register finds the input used up: then that
register is marked ready. -/
theorem execute_atomic {instructions : InstructionSet} {cause : Fault}
    (h : i.execute instructions m = .error (.fault cause) m') :
    m'.processor = m.processor ∧ m.terminal.Idle m'.terminal ∧
      ∀ a, m'.memory.peek a =
        if a = 0xFE00 ∧ cause = .inputUnderflow ∧ 0xFE00 ∈ i.addresses m then 0x8000
        else m.memory.peek a := by
  cases hop : Opcode.ofCode? i.opcode with
  | none =>
      -- the word is no instruction at all
      simp only [execute, hop] at h
      cases h
      exact ⟨rfl, .refl _, fun a => (if_neg fun hread => nomatch hread.2.1).symm⟩
  | some op =>
      simp only [execute, hop] at h
      split at h
      · have hstops := stops_of_perform h
        refine ⟨processor_of_stops hstops, idle_of_stops hstops, fun a => ?_⟩
        obtain ⟨hreads, hread, hmemory⟩ | ⟨hreads, hmemory⟩ := memory_of_stops hstops
        · have haddress : 0xFE00 ∈ i.addresses m := mem_addresses_of_perform hop hreads h
          obtain ⟨-, ⟨-, hcause⟩ | ⟨-, hcause⟩⟩ := Terminal.read_error_cases hread
          · cases hcause
            rw [hmemory, Memory.peek_poke]
            simp only [haddress, and_true, eq_comm]
            rfl
          · cases hcause
        · rw [hmemory, addresses_eq_nil hop hreads]
          exact (if_neg fun hread => List.not_mem_nil hread.2.2).symm
      · -- the instruction set lacks the opcode
        cases h
        exact ⟨rfl, .refl _, fun a => (if_neg fun hread => nomatch hread.2.1).symm⟩

end Instruction

/-- A machine in strict mode whose input is used up, with all flags set.  Behind the program counter
stands a pointer to the keyboard status register. -/
def Machine.deserted : Machine where
  processor := { Processor.reset 0x3000 with cond := 7 }
  memory := (Memory.empty.load 0x3000 [0xFE00]).2.poke 0xFE02 0x1234
  terminal := .console [] .underflow

theorem Instruction.execute_atomic_deserted :
    ∃ m', (decode 0xA200).execute .complete .deserted = .error (.fault .inputUnderflow) m' ∧
      m'.processor = Machine.deserted.processor ∧ m'.terminal.written = [] ∧
      m'.memory.peek 0xFE00 = 0x8000 ∧ m'.memory.peek 0xFE02 = 0x1234 := by
  have hexecute : (decode 0xA200).execute .complete .deserted =
      .error (.fault .inputUnderflow) _ := rfl
  obtain ⟨hprocessor, hidle, hmemory⟩ := execute_atomic hexecute
  exact ⟨_, hexecute, hprocessor, hidle.written, hmemory 0xFE00, hmemory 0xFE02⟩

end LittleComputer
