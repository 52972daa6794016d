import LittleComputer.Proofs.Rows
import LittleComputer.Proofs.Stops

/-!
# The account of the input

A program takes characters in three ways: by two of the traps, and by reading the keyboard status
register, as a word or as a pointer.  Whichever it uses, a completed step takes at most one, and its
row shows which.

* `Terminal.asked`, `Terminal.intake` — what a terminal tells about its input.
* `Machine.Accounts` — what a step does with the input, and `Exec.accounts_of_cycle`: **every
  completed cycle does that**.
* `Session.Accounted` — what the rows of a session show of the input, kept by every turn
  (`Session.accounted_of_next`) and so by every run (`Session.accounted_after`).
* `run_input` — **the account of a whole run**.
-/

namespace LittleComputer

/-! ## What terminals tell about their input -/

namespace Terminal

variable (t : Terminal)

/-- What the reads so far have given, in order: a code, or nothing at the end of the input. -/
def asked : List (Option Nat) :=
  t.transcript.toList.filterMap fun
    | .read code => some code
    | _ => none

/-- All of it: the last code, the reads so far and the characters still to come. -/
def intake : Option Nat × List (Option Nat) × List Nat := (t.lastIn, t.asked, t.pending)

theorem intake_write (code : Int) : (t.write code).intake = t.intake := by
  simp [intake, asked, write, record]

theorem intake_writeAll (codes : List Int) : (t.writeAll codes).intake = t.intake := by
  induction codes generalizing t with
  | nil => rfl
  | cons code rest ih => exact (ih (t.write code)).trans (t.intake_write code)

theorem intake_flush : t.flush.intake = t.intake := by
  simp [intake, asked, flush, record]

theorem received_writeAll (codes : List Int) : (t.writeAll codes).received = t.received := by
  induction codes generalizing t with
  | nil => rfl
  | cons code rest ih =>
      have hwrite : (t.write code).received = t.received := by simp [received, write, record]
      exact (ih (t.write code)).trans hwrite

theorem received_flush : t.flush.received = t.received := by
  simp [received, flush, record]

/-- A read that gives a code takes the first of those still to come. -/
theorem intake_of_read {t t' : Terminal} {code : Nat} (h : t.read = (.ok code, t')) :
    t'.intake = (some code, t.asked ++ [t.pending.head?], t.pending.tail) := by
  unfold read at h
  split at h
  · rename_i c rest hp
    cases h
    simp [intake, asked, record, hp]
  · rename_i hp
    dsimp only at h
    split at h
    · cases h
      simp [intake, asked, record, hp]
    · cases h
    · cases h

end Terminal

/-! ## Single steps -/

/-- What the step that carries out `w` and leaves `m'` does with the input of `m`, where `code?` is
the code that it shows. -/
structure Machine.Accounts (m : Machine) (w : Word) (code? : Option Nat) (m' : Machine) : Prop where
  /-- It asks for a character once if it shows a code, and not at all otherwise. -/
  asked : m'.terminal.asked =
    m.terminal.asked ++ code?.toList.map fun _ => m.terminal.pending.head?
  /-- It takes as many characters as it asks for, while there are any. -/
  pending : m'.terminal.pending = m.terminal.pending.drop code?.toList.length
  /-- The code is that of the next character, or the one that stands for the end of the input. -/
  code : ∀ code, code? = some code → code = m.terminal.pending.headD 0xFFFF ∧
    (m.terminal.pending = [] → m.terminal.atEnd = .sentinel)
  /-- The traps that take a character put it into the first register. -/
  trap : w.TakesCharacter → ∃ code, code? = some code ∧
    m'.processor.register .r0 = BitVec.ofNat 16 code
  /-- Other steps that show a code have read memory, and the keyboard registers hold what they have
  found. -/
  keyboard : ∀ code, code? = some code → ¬ w.TakesCharacter → w.opcode ∈ Opcode.readers ∧
    m'.memory.peek 0xFE02 = BitVec.ofNat 16 code ∧ m'.memory.peek 0xFE00 = 0x8000

namespace Machine.Accounts

variable {m m' : Machine} {w : Word}

/-- A step that leaves the terminal's input alone. -/
theorem of_quiet (h : m'.terminal.intake = m.terminal.resetCodes.intake)
    (hw : ¬ w.TakesCharacter) : m.Accounts w m'.terminal.lastIn m' := by
  have hlast : m'.terminal.lastIn = none := congrArg Prod.fst h
  rw [hlast]
  constructor
  case asked =>
    have hasked : m'.terminal.asked = m.terminal.asked := congrArg (·.2.1) h
    simp [hasked]
  case pending => exact congrArg (·.2.2) h
  case code =>
    intro code hcode
    cases hcode
  case trap =>
    intro htakes
    exact absurd htakes hw
  case keyboard =>
    intro code hcode
    cases hcode

/-- A step that takes a character. -/
theorem of_read {code : Nat} {t : Terminal} (hread : m.terminal.resetCodes.read = (.ok code, t))
    (h : m'.terminal.intake = t.intake)
    (htrap : w.TakesCharacter → m'.processor.register .r0 = BitVec.ofNat 16 code)
    (hkeyboard : ¬ w.TakesCharacter → w.opcode ∈ Opcode.readers ∧
      m'.memory.peek 0xFE02 = BitVec.ofNat 16 code ∧ m'.memory.peek 0xFE00 = 0x8000) :
    m.Accounts w m'.terminal.lastIn m' := by
  rw [Terminal.intake_of_read hread] at h
  obtain ⟨hcode, -, hend⟩ := Terminal.read_ok_cases hread
  have hlast : m'.terminal.lastIn = some code := congrArg Prod.fst h
  rw [hlast]
  constructor
  case asked => exact congrArg (·.2.1) h
  case pending =>
    rw [Option.toList_some, List.length_singleton, List.drop_one]
    exact congrArg (·.2.2) h
  case code =>
    intro code' hcode'
    cases hcode'
    exact ⟨hcode, hend⟩
  case trap => exact fun htakes => ⟨code, rfl, htrap htakes⟩
  case keyboard =>
    intro code' hcode' hw
    cases hcode'
    exact hkeyboard hw

/-- Jumping does nothing to it. -/
theorem jumpTo {code? : Option Nat} (h : m.Accounts w code? m') (target : Option Int) :
    m.Accounts w code? (m'.jumpTo target) := by
  cases target with
  | none => exact h
  | some target => exact ⟨h.asked, h.pending, h.code, h.trap, h.keyboard⟩

end Machine.Accounts

/-- What the keyboard registers hold after a character has been read through them. -/
theorem Machine.peek_receive (m : Machine) (code : Nat) (t : Terminal) :
    (m.receive code t).memory.peek 0xFE02 = BitVec.ofNat 16 code ∧
      (m.receive code t).memory.peek 0xFE00 = 0x8000 := by
  constructor
  · exact Memory.peek_poke_self _ Memory.keyboardData _
  · have hother : Memory.keyboardData ≠ Memory.keyboardStatus := by decide
    show ((m.memory.poke Memory.keyboardStatus Memory.keyboardReady).poke Memory.keyboardData
      (BitVec.ofNat 16 code)).peek Memory.keyboardStatus = Memory.keyboardReady
    rw [Memory.peek_poke_of_ne _ _ hother, Memory.peek_poke_self]

namespace Exec

variable {instructions : InstructionSet} {m m' m₁ : Machine} {w : Word} {target : Option Int}

/-- The trap routines account for the input. -/
theorem accounts_of_run {routine : Trap} (hop : w.opcode = .trap)
    (hv : Trap.ofVector? (decode w.toNat).trapVector = some routine)
    (h : routine.run (m.advance w).resetCodes = .ok () m₁) :
    m.Accounts w m₁.terminal.lastIn m₁ := by
  have hquiet : routine ≠ .getc → routine ≠ .readEcho → ¬ w.TakesCharacter := by
    intro hgetc hecho htakes
    rw [Word.takesCharacter_iff, hv, Option.some.injEq, Option.some.injEq] at htakes
    exact htakes.2.elim hgetc hecho
  cases routine with
  | getc =>
      rw [Trap.run_getc, bind_finish_eq_ok] at h
      obtain ⟨code, m₂, hchar, -, rfl⟩ := h
      obtain ⟨t, hread, rfl⟩ := readChar_cases hchar
      refine .of_read hread (Terminal.intake_flush t) (fun _ => ?_) fun hw => ?_
      · exact (Processor.register_setRegister _ _ _ _).trans (if_pos rfl)
      · exact absurd (w.takesCharacter_iff.2 ⟨hop, .inl hv⟩) hw
  | readEcho =>
      rw [Trap.run_readEcho, bind_finish_eq_ok] at h
      obtain ⟨code, m₂, hchar, -, rfl⟩ := h
      obtain ⟨t, hread, rfl⟩ := readChar_cases hchar
      refine .of_read hread (t.intake_writeAll [(code : Int)]) (fun _ => ?_) fun hw => ?_
      · exact (Processor.register_setRegister _ _ _ _).trans (if_pos rfl)
      · exact absurd (w.takesCharacter_iff.2 ⟨hop, .inr hv⟩) hw
  | out =>
      cases h
      exact .of_quiet (Terminal.intake_writeAll _ _) (hquiet (by decide) (by decide))
  | puts =>
      rw [Trap.run_puts, bind_finish_eq_ok] at h
      obtain ⟨words, m₂, hstring, -, rfl⟩ := h
      obtain ⟨-, rfl⟩ := string_cases hstring
      refine .of_quiet ?_ (hquiet (by decide) (by decide))
      exact (Terminal.intake_flush _).trans (Terminal.intake_writeAll _ _)
  | putsp =>
      rw [Trap.run_putsp, bind_finish_eq_ok] at h
      obtain ⟨words, m₂, hstring, -, rfl⟩ := h
      obtain ⟨-, rfl⟩ := string_cases hstring
      refine .of_quiet ?_ (hquiet (by decide) (by decide))
      exact (Terminal.intake_flush _).trans (Terminal.intake_writeAll _ _)
  | halt =>
      cases h
      exact .of_quiet (Terminal.intake_flush _) (hquiet (by decide) (by decide))

/-- Only traps take characters without reading memory. -/
theorem not_takesCharacter {op : Opcode} (hop : w.opcode = op) (htrap : op ≠ .trap) :
    ¬ w.TakesCharacter := by
  intro htakes
  exact htrap (hop.symm.trans (w.takesCharacter_iff.1 htakes).1)

/-- A read of memory accounts for the input, whatever is made of the word that it finds: only the
terminal must be left alone, and the keyboard registers where they have been used. -/
theorem accounts_of_load {address : Int} {v : Word} {op : Opcode} (hop : w.opcode = op)
    (hreader : op ∈ Opcode.readers)
    (hload : load address (m.advance w).resetCodes = .ok v m₁)
    (hterminal : m'.terminal = m₁.terminal)
    (hmemory : v = Memory.keyboardReady → m'.memory.peek 0xFE02 = m₁.memory.peek 0xFE02 ∧
      m'.memory.peek 0xFE00 = m₁.memory.peek 0xFE00) :
    m.Accounts w m'.terminal.lastIn m' := by
  have htrap : op ≠ .trap := by
    rintro rfl
    revert hreader
    decide
  have hw := not_takesCharacter hop htrap
  obtain ⟨-, -, rfl⟩ | ⟨-, rfl, code, t, hread, rfl⟩ := load_cases hload
  · refine .of_quiet ?_ hw
    rw [hterminal]
    rfl
  · refine .of_read hread ?_ (fun htakes => absurd htakes hw) fun _ => ?_
    · rw [hterminal]
      rfl
    · obtain ⟨hdata, hstatus⟩ := hmemory rfl
      obtain ⟨hcode, hready⟩ := (m.advance w).resetCodes.peek_receive code t
      rw [hop]
      exact ⟨hreader, hdata.trans hcode, hstatus.trans hready⟩

/-- Instructions account for the input. -/
theorem accounts_of_perform
    (h : (decode w.toNat).perform w.opcode (m.advance w).resetCodes = .ok target m₁) :
    m.Accounts w m₁.terminal.lastIn m₁ := by
  cases hop : w.opcode with
  | add | and | not | br | jmp | jsr | lea | st | str =>
      -- none of these has to do with the terminal
      simp only [hop, Instruction.perform_add, Instruction.perform_and, Instruction.perform_not,
        Instruction.perform_br, Instruction.perform_jmp, Instruction.perform_jsr,
        Instruction.perform_lea, Instruction.perform_st, Instruction.perform_str] at h
      cases h
      exact .of_quiet rfl (not_takesCharacter hop (by decide))
  | rti | res =>
      rw [hop] at h
      cases h
  | ld =>
      rw [hop, Instruction.perform_ld, bind_finish_eq_ok] at h
      obtain ⟨v, m₂, hload, -, rfl⟩ := h
      exact accounts_of_load hop (by decide) hload rfl fun _ => ⟨rfl, rfl⟩
  | ldr =>
      rw [hop, Instruction.perform_ldr, bind_finish_eq_ok] at h
      obtain ⟨v, m₂, hload, -, rfl⟩ := h
      exact accounts_of_load hop (by decide) hload rfl fun _ => ⟨rfl, rfl⟩
  | sti =>
      rw [hop, Instruction.perform_sti, bind_finish_eq_ok] at h
      obtain ⟨pointer, m₂, hload, -, rfl⟩ := h
      refine accounts_of_load hop (by decide) hload rfl ?_
      rintro rfl
      -- a pointer read from the status register leads to neither of the keyboard registers
      exact ⟨Memory.peek_poke_of_ne _ _ (by decide), Memory.peek_poke_of_ne _ _ (by decide)⟩
  | ldi =>
      rw [hop, Instruction.perform_ldi, bind_eq_ok] at h
      obtain ⟨pointer, m₂, hpointer, h⟩ := h
      rw [bind_finish_eq_ok] at h
      obtain ⟨v, m₃, hload, -, rfl⟩ := h
      obtain ⟨-, -, rfl⟩ | ⟨-, rfl, -⟩ := load_cases hpointer
      · exact accounts_of_load hop (by decide) hload rfl fun _ => ⟨rfl, rfl⟩
      · -- what such a pointer leads to is read as a plain cell
        have hsame : m₃ = m₂ := by
          obtain ⟨-, -, rfl⟩ | ⟨hk, -⟩ := load_cases hload
          · rfl
          · exact absurd hk (by decide)
        subst hsame
        exact accounts_of_load hop (by decide) hpointer rfl fun _ => ⟨rfl, rfl⟩
  | trap =>
      rw [hop] at h
      obtain ⟨-, routine, hv, hrun⟩ := Instruction.trap_cases h
      exact accounts_of_run hop hv hrun

/-- **Every completed cycle accounts for the input.** -/
theorem accounts_of_cycle (h : cycle instructions m = .ok w m') :
    m.Accounts w m'.terminal.lastIn m' := by
  obtain ⟨-, -, -, target, m₁, hperform, rfl⟩ := cycle_ok_cases h
  have haccounts := (accounts_of_perform hperform).jumpTo target
  cases target <;> exact haccounts

end Exec

/-! ## Runs -/

/-- What has been received and what is still to come make up the input. -/
theorem Machine.closed_input (codes : List Nat) :
    Closed fun m => m.terminal.received ++ m.terminal.pending = codes where
  setRegister _ _ hm := hm
  setResult _ _ hm := hm
  store _ _ hm := hm
  read {m} hm := (m.terminal.received_append_pending_read).trans hm
  writeAll {m} written hm := by
    show (m.terminal.writeAll written).received ++ (m.terminal.writeAll written).pending = codes
    rw [Terminal.received_writeAll, (Terminal.input_writeAll _ _).1]
    exact hm
  flush {m} hm := by
    show m.terminal.flush.received ++ m.terminal.pending = codes
    rw [Terminal.received_flush]
    exact hm
  resetCodes hm := hm
  move _ _ hm := hm
  setStatus _ hm := hm

namespace Session

variable {settings : Settings} {s t : Session} {codes : List Nat} {policy : EndOfInput} {m j : Nat}

/-- The codes that the rows show. -/
def inCodes (s : Session) : List Nat := s.trace.toList.filterMap TraceRow.inCode

/-- The rows of a session show the first `m` codes of its input and then `j` times the code that
stands for its end; the rest of the input is still to come. -/
structure Accounted (codes : List Nat) (policy : EndOfInput) (m j : Nat) (s : Session) :
    Prop where
  /-- There are as many codes. -/
  le : m ≤ codes.length
  /-- What the rows show. -/
  rows : s.inCodes = codes.take m ++ List.replicate j 0xFFFF
  /-- What is still to come. -/
  pending : s.machine.terminal.pending = codes.drop m
  /-- The end of the input shows only after all of it, and only where it may. -/
  marks : 0 < j → m = codes.length ∧ policy = .sentinel
  /-- What the terminal does at the end of its input. -/
  policy : s.machine.terminal.atEnd = policy

/-- A row shows the last code that the terminal has given, if it shows codes. -/
theorem inCode_row (hcodes : settings.options.traceTerminal = true) (s : Session) (w : Word)
    (m : Machine) : (s.row settings.options w m).inCode = m.terminal.lastIn := by
  rw [row, TraceRow.after, hcodes]
  rfl

/-- **A completed turn keeps the account**, and so it goes on by at most one code. -/
theorem accounted_of_next (htrace : settings.options.trace = true)
    (hcodes : settings.options.traceTerminal = true) (h : s.turn settings = .next t)
    (hs : s.Accounted codes policy m j) : ∃ m' j', t.Accounted codes policy m' j' := by
  obtain ⟨w, hcycle, hrow⟩ := row_of_next htrace h
  have haccounts := Exec.accounts_of_cycle hcycle
  have hpolicy := closed_of_next (Machine.closed_atEnd policy) h hs.policy
  have hshown := inCode_row hcodes s w t.machine
  have hrows : t.inCodes = s.inCodes ++ t.machine.terminal.lastIn.toList := by
    rw [inCodes, hrow, List.filterMap_append, ← hshown]
    cases hcode : (s.row settings.options w t.machine).inCode <;> simp [inCodes, hcode]
  cases hcode : t.machine.terminal.lastIn with
  | none =>
      rw [hcode] at haccounts hrows
      refine ⟨m, j, hs.le, ?_, haccounts.pending.trans hs.pending, hs.marks, hpolicy⟩
      rw [hrows, hs.rows]
      exact List.append_nil _
  | some code =>
      rw [hcode] at haccounts hrows
      obtain ⟨hfirst, hend⟩ := haccounts.code code rfl
      have hpending : t.machine.terminal.pending = codes.drop (m + 1) := by
        rw [haccounts.pending, hs.pending, List.drop_drop]
        rfl
      rw [hs.pending] at hfirst hend
      by_cases hlt : m < codes.length
      · -- the next code of the input
        have hnone : j = 0 := by
          refine Nat.eq_zero_of_not_pos fun hj => ?_
          have hall := (hs.marks hj).1
          omega
        subst hnone
        rw [List.drop_eq_getElem_cons hlt, List.headD_cons] at hfirst
        refine ⟨m + 1, 0, hlt, ?_, hpending, fun hj => absurd hj (Nat.lt_irrefl 0), hpolicy⟩
        rw [hrows, hs.rows, hfirst, List.take_succ_eq_append_getElem hlt]
        simp
      · -- the end of the input
        have hall : m = codes.length := by
          have hle := hs.le
          omega
        have hempty : codes.drop m = [] := by rw [hall, List.drop_length]
        rw [hempty] at hfirst hend
        refine ⟨m, j + 1, hs.le, ?_, ?_, fun _ => ⟨hall, hs.policy.symm.trans (hend rfl)⟩, hpolicy⟩
        · rw [hrows, hs.rows, hfirst, List.append_assoc, List.replicate_succ']
          rfl
        · rw [hpending, hempty, hall]
          exact List.drop_of_length_le (Nat.le_succ _)

/-- **Runs keep the account.** -/
theorem accounted_after (htrace : settings.options.trace = true)
    (hcodes : settings.options.traceTerminal = true) {n : Nat}
    (h : after settings n s = some t) (hs : s.Accounted codes policy m j) :
    ∃ m' j', t.Accounted codes policy m' j' := by
  refine after_induction (I := fun u => ∃ m j, u.Accounted codes policy m j) h ⟨m, j, hs⟩ ?_
  rintro u v ⟨m, j, hu⟩ hturn
  exact accounted_of_next htrace hcodes hturn hu

/-- A turn that fails takes a character only if it fetches from the keyboard status register, and
then the report says so. -/
theorem pending_of_failed {report : Report} (h : Ends settings s (.faulted report) t) :
    (t.machine.terminal.pending = s.machine.terminal.pending ∧
      (report.addr = 0xFE00 → report.instr = none)) ∨
    (t.machine.terminal.pending = s.machine.terminal.pending.tail ∧
      (s.machine.terminal.pending ≠ [] → report.addr = 0xFE00 ∧ report.instr ≠ none)) := by
  cases h with
  | exhausted _ _ => exact .inl ⟨rfl, fun _ => rfl⟩
  | @faulted cause m' _ _ hcycle =>
      have hpending := Exec.pending_of_cycle_error hcycle
      by_cases hpc : s.machine.processor.pc = Memory.keyboardStatus
      · rw [if_pos hpc] at hpending
        refine .inr ⟨hpending, fun hne => ⟨?_, ?_⟩⟩
        · show (s.machine.processor.pc.toNat : Int) = 0xFE00
          rw [hpc]
          rfl
        · show m'.processor.ir ≠ none
          obtain ⟨hfetch, -⟩ | ⟨w, m₁, -, hm', -⟩ := Exec.processor_of_cycle_error hcycle
          · obtain ⟨-, t, hread, -⟩ := Exec.fetch_error_cases hfetch
            exact absurd (Terminal.read_error_cases hread).1 hne
          · rw [hm']
            exact Option.some_ne_none _
      · rw [if_neg hpc] at hpending
        refine .inl ⟨hpending, fun haddr => ?_⟩
        have haddr' : (s.machine.processor.pc.toNat : Int) = 0xFE00 := haddr
        exact absurd (BitVec.eq_of_toNat_eq (Int.ofNat.inj haddr')) hpc

end Session

/-- The run was ended by a fault in an instruction that was fetched from the keyboard status
register. -/
def Result.FetchedKeyboard (r : Result) : Prop :=
  ∃ report, r.error = some report ∧ report.addr = 0xFE00 ∧ report.instr ≠ none

/-- What is received is what is not pending. -/
theorem Terminal.received_eq_take {t : Terminal} {codes : List Nat} {k : Nat}
    (h : t.received ++ t.pending = codes) (hpending : t.pending = codes.drop k) :
    t.received = codes.take k := by
  rw [hpending] at h
  exact List.append_cancel_right (h.trans (List.take_append_drop k codes).symm)

/-- How much of the input is left by a run that has ended. -/
theorem Session.pending_of_result {settings : Settings} {t u : Session} {codes : List Nat}
    {policy : EndOfInput} {m j : Nat} {ending : Ending} {r : Result}
    (ht : t.Accounted codes policy m j) (hends : Ends settings t ending u)
    (hr : (u.close ending).result? settings.options ending = some r) :
    (r.FetchedKeyboard ∧ m < codes.length → u.machine.terminal.pending = codes.drop (m + 1)) ∧
      (¬ (r.FetchedKeyboard ∧ m < codes.length) →
        u.machine.terminal.pending = codes.drop m) := by
  obtain ⟨rfl, rfl⟩ | ⟨report, rfl, rfl⟩ := Session.result?_cases hr
  · cases hends with
    | halted _ =>
        refine ⟨?_, fun _ => ht.pending⟩
        rintro ⟨⟨report, hreport, -⟩, -⟩
        cases hreport
  · have hrest := ht.pending
    obtain ⟨hsame, hnone⟩ | ⟨htail, htaken⟩ := pending_of_failed hends
    · refine ⟨?_, fun _ => hsame.trans hrest⟩
      rintro ⟨⟨report', hreport, haddr, hinstr⟩, -⟩
      cases hreport
      exact absurd (hnone haddr) hinstr
    · rw [hrest, List.tail_drop] at htail
      refine ⟨fun _ => htail, fun hother => ?_⟩
      by_cases hlt : m < codes.length
      · have hne : t.machine.terminal.pending ≠ [] := by
          rw [hrest, ne_eq, List.drop_eq_nil_iff]
          omega
        obtain ⟨haddr, hinstr⟩ := htaken hne
        exact absurd ⟨⟨report, rfl, haddr, hinstr⟩, hlt⟩ hother
      · -- there was nothing left to take
        rw [htail, List.drop_of_length_le (by omega), List.drop_of_length_le (by omega)]

/-- **The account of a whole run.**  The codes that the rows show are the first `m` of the input and
then, if those are all of it and the terminal is lenient, `j` times `0xFFFF`.  There is a row for
every completed step, and it accounts for what the step has done with the input; none of the steps
was fetched from the keyboard status register.  The run has taken `m` characters, and one more if a
fetch from there took it. -/
theorem run_input {settings : Settings} {program : Program} {codes : List Nat} {strict : Bool}
    {journal : Journal} {fuel : Nat} {s : Session} {c : Conclusion} {r : Result}
    (htrace : settings.options.trace = true) (hcodes : settings.options.traceTerminal = true)
    (hs : program.session? settings.sorted.options (.buffer codes (.ofStrict strict)) journal =
      some s)
    (h : run fuel settings program (.buffer codes (.ofStrict strict)) journal = some c)
    (hr : c.result = some r) :
    ∃ m j, m ≤ codes.length ∧
      r.trace.filterMap TraceRow.inCode = codes.take m ++ List.replicate j 0xFFFF ∧
      (0 < j → m = codes.length ∧ strict = false) ∧
      r.trace.length = r.steps ∧
      (∀ i row, r.trace[i]? = some row → row.addr ≠ 0xFE00 ∧
        ∃ t u, s.after settings.sorted i = some t ∧ s.after settings.sorted (i + 1) = some u ∧
          row.registers = u.machine.processor.registers ∧
          t.machine.Accounts row.instr row.inCode u.machine) ∧
      (r.FetchedKeyboard ∧ m < codes.length →
        c.terminal.received = codes.take (m + 1) ∧ c.terminal.pending = codes.drop (m + 1)) ∧
      (¬ (r.FetchedKeyboard ∧ m < codes.length) →
        c.terminal.received = codes.take m ∧ c.terminal.pending = codes.drop m) := by
  obtain ⟨n, t, ending, u, -, hafter, hends, rfl⟩ := (run_eq_some_iff hs).1 h
  obtain ⟨image, journal', rfl⟩ := Program.session?_cases hs
  have hfirst : (Session.start settings.sorted.options image
      (.buffer codes (.ofStrict strict)) journal').Accounted codes (.ofStrict strict) 0 0 :=
    ⟨Nat.zero_le _, rfl, rfl, fun hj => absurd hj (Nat.lt_irrefl 0), rfl⟩
  have htrace' : settings.sorted.options.trace = true := htrace
  have hcodes' : settings.sorted.options.traceTerminal = true := hcodes
  obtain ⟨m, j, ht⟩ := Session.accounted_after htrace' hcodes' hafter hfirst
  have hinput : u.machine.terminal.flush.received ++ u.machine.terminal.pending = codes := by
    have hclosed := Machine.closed_input codes
    exact hclosed.flush (Session.closed_of_ends hclosed hends
      (Session.closed_after hclosed hafter rfl))
  have hresult : r.trace = t.trace.toList ∧ r.steps = n := by
    have hsteps : u.steps = n := by
      rw [hends.steps_eq, Session.steps_after hafter]
      exact Nat.zero_add n
    have hrows := congrArg Array.toList hends.trace_eq
    obtain ⟨-, rfl⟩ | ⟨report, -, rfl⟩ := Session.result?_cases hr
    · exact ⟨hrows, hsteps⟩
    · exact ⟨hrows, hsteps⟩
  obtain ⟨htaken, hleft⟩ := Session.pending_of_result ht hends hr
  rw [hresult.1, hresult.2]
  refine ⟨m, j, ht.le, ht.rows, fun hj => ?_, ?_, fun i row hrow => ?_, fun hfetch => ?_,
    fun hother => ?_⟩
  · obtain ⟨hall, hpolicy⟩ := ht.marks hj
    cases strict with
    | true => cases hpolicy
    | false => exact ⟨hall, rfl⟩
  · exact Session.length_trace htrace' rfl hafter
  · obtain ⟨v, v', w, hv, hturn, hcycle, rfl⟩ := Session.step_of_row htrace' rfl hafter hrow
    obtain ⟨hpc, -⟩ := Exec.cycle_ok_cases hcycle
    refine ⟨hpc, v, v', hv, Session.after_succ_eq_some_iff'.2 ⟨v, hv, hturn⟩, rfl, ?_⟩
    rw [Session.inCode_row hcodes' v w v'.machine]
    exact Exec.accounts_of_cycle hcycle
  · exact ⟨Terminal.received_eq_take hinput (htaken hfetch), htaken hfetch⟩
  · exact ⟨Terminal.received_eq_take hinput (hleft hother), hleft hother⟩

/-- A program that takes one character by a trap and one through a pointer, and then jumps to the
keyboard status register. -/
def Program.typing : Program := .image ⟨0x3000, [0xF020, 0xA002, 0x2201, 0xC040, 0xFE00]⟩

theorem run_input_typing :
    ∃ c r, run 9 { options := { trace := true } } Program.typing
        (.buffer [65, 0x1F600, 67, 68] (.ofStrict true)) ⟨.error, #[]⟩ = some c ∧
      c.result = some r ∧ r.FetchedKeyboard ∧
      r.trace.filterMap TraceRow.inCode = [65, 0x1F600] ∧ c.terminal.pending = [68] ∧
      ∃ m j, r.trace.filterMap TraceRow.inCode =
          [65, 0x1F600, 67, 68].take m ++ List.replicate j 0xFFFF ∧
        (m < 4 → c.terminal.pending = [65, 0x1F600, 67, 68].drop (m + 1)) := by
  have hrun : run 9 { options := { trace := true } } Program.typing
      (.buffer [65, 0x1F600, 67, 68] (.ofStrict true)) ⟨.error, #[]⟩ = some _ := rfl
  obtain ⟨m, j, -, hcodes, -, -, -, htaken, -⟩ := run_input rfl rfl rfl hrun rfl
  refine ⟨_, _, hrun, rfl, ?_, rfl, rfl, m, j, hcodes, fun hlt => (htaken ⟨?_, hlt⟩).2⟩
  · exact ⟨_, rfl, rfl, Option.some_ne_none _⟩
  · exact ⟨_, rfl, rfl, Option.some_ne_none _⟩

end LittleComputer
