import LittleComputer.Proofs.Programs
import LittleComputer.Proofs.Stops

/-!
# The echo program

Five words take characters and write them back until there is a line feed.  The program is followed
through its loop: what it finds at the head of the loop for one character it finds again for the
next.

* `Machine.Echoes` — the machine is at a word of the program, with this input left and this output
  written.
* `Machine.Echoes.getc`, `Machine.Echoes.out`, `Machine.Echoes.add`, `Machine.Echoes.br`,
  `Machine.Echoes.halt` — what each of the five words does.
* `Machine.Echoes.round`, `Machine.Echoes.rounds` — one character, and all of them.
* `runOn_echo` — **the program echoes every input**.
-/

namespace LittleComputer

/-- Takes a character, writes it, compares it with a line feed and goes back unless it is one. -/
def Image.echo : Image := ⟨0x3000, [0xF020, 0xF021, 0x1236, 0x0BFC, 0xF025]⟩

/-- The same as a file. -/
def Program.echo : Program :=
  .bytes [0x30, 0x00, 0xF0, 0x20, 0xF0, 0x21, 0x12, 0x36, 0x0B, 0xFC, 0xF0, 0x25]

namespace Machine

/-- `m.Echoes i pending written` : the machine runs and has come to the word with index `i` of the
program in its memory; this input is left, and this output has been written. -/
structure Echoes (m : Machine) (i : Nat) (pending : List Nat) (written : List Byte) : Prop where
  /-- The machine runs. -/
  running : m.processor.running = true
  /-- It has come to the word. -/
  pc : m.processor.pc = 0x3000 + BitVec.ofNat 16 i
  /-- The program is in memory. -/
  code : ∀ j w, Image.echo.words[j]?.map Word.ofInt = some w →
    m.memory.peek (0x3000 + BitVec.ofNat 16 j) = w
  /-- The output is kept. -/
  device : m.terminal.device = .buffer
  /-- The input that is left. -/
  pending : m.terminal.pending = pending
  /-- The output so far. -/
  written : m.terminal.written = written

namespace Echoes

variable {instructions : InstructionSet} {m : Machine} {i : Nat} {pending : List Nat}
  {written : List Byte}

/-! ## Single words -/

/-- The machine is at a word of the image, -/
theorem place (h : m.Echoes i pending written) : m.At .echo i := ⟨h.running, h.pc, h.code⟩

/-- and there is nothing more to it but the terminal. -/
theorem of_place (h : m.At .echo i) (hdevice : m.terminal.device = .buffer)
    (hpending : m.terminal.pending = pending) (hwritten : m.terminal.written = written) :
    m.Echoes i pending written :=
  ⟨h.running, h.pc, h.code, hdevice, hpending, hwritten⟩

/-- Taking a character. -/
theorem getc {code : Nat} {rest : List Nat} (h : m.Echoes 0 (code :: rest) written)
    (hset : instructions .trap = true) :
    ∃ m', m.Steps instructions 1 m' ∧ m'.Echoes 1 rest written ∧
      m'.processor.register .r0 = BitVec.ofNat 16 code := by
  have hnext := h.place.advance 0xF020
  have hpending : (m.advance 0xF020).resetCodes.terminal.pending = code :: rest := h.pending
  have hrun := Trap.run_getc (m.advance 0xF020).resetCodes
  have hread : (m.advance 0xF020).resetCodes.terminal.read =
      (.ok code, (m.advance 0xF020).resetCodes.terminal.read.2) := by
    unfold Terminal.read
    rw [hpending]
  rw [Exec.bind_apply, Exec.readChar_apply, hread] at hrun
  refine ⟨_, h.place.trap (Image.ordinary rfl (by decide)) rfl (by decide) hset rfl hrun,
    of_place (hnext.of_eq rfl rfl rfl) ?_ ?_ ?_, ?_⟩
  · exact (Terminal.device_read _).trans h.device
  · refine (Terminal.pending_read _).trans ?_
    rw [hpending, List.tail_cons]
  · exact (Terminal.written_flush _).trans ((Terminal.written_read _).trans h.written)
  · exact (Processor.register_setRegister _ .r0 .r0 _).trans (if_pos rfl)

/-- Writing it. -/
theorem out (h : m.Echoes 1 pending written) (hset : instructions .trap = true) :
    ∃ m', m.Steps instructions 1 m' ∧
      m'.Echoes 2 pending (written ++ [(m.processor.register .r0).setWidth 8]) ∧
      m'.processor.register .r0 = m.processor.register .r0 := by
  have hnext := h.place.advance 0xF021
  have hrun := Trap.run_out (m.advance 0xF021).resetCodes
  refine ⟨_, h.place.trap (Image.ordinary rfl (by decide)) rfl (by decide) hset rfl hrun,
    of_place (hnext.of_eq rfl rfl rfl) ?_ ?_ ?_, rfl⟩
  · exact (Terminal.device_writeAll _ _).trans h.device
  · exact (Terminal.input_writeAll _ _).1.trans h.pending
  · refine (Terminal.written_writeAll _ _).trans ?_
    rw [← h.written, List.map_singleton]
    rfl

/-- Comparing it with a line feed. -/
theorem add (h : m.Echoes 2 pending written) (hset : instructions .add = true) :
    ∃ m', m.Steps instructions 1 m' ∧ m'.Echoes 3 pending written ∧
      m'.processor.register .r0 = m.processor.register .r0 ∧
      m'.processor.cond = .ofWord (m.processor.register .r0 + 0xFFF6) := by
  have hperform := Instruction.perform_add (decode (0x1236 : Word).toNat)
    (m.advance 0x1236).resetCodes
  obtain ⟨m', hstep, hat, hadded⟩ :=
    h.place.compute (Image.ordinary rfl (by decide)) rfl (by decide) hset hperform
  refine ⟨m', hstep, of_place hat ?_ ?_ ?_, hadded.others .r0 (by decide), hadded.cond⟩
  · rw [hadded.terminal]
    exact h.device
  · rw [hadded.terminal]
    exact h.pending
  · rw [hadded.terminal]
    exact h.written

/-- Going back unless it is one. -/
theorem br (h : m.Echoes 3 pending written) (hset : instructions .br = true)
    (hsingle : m.processor.cond.Single) :
    ∃ m', m.Steps instructions 1 m' ∧
      m'.Echoes (if m.processor.cond = .zero then 4 else 0) pending written ∧
      m'.processor.registers = m.processor.registers ∧ m'.processor.cond = m.processor.cond := by
  have htarget : Word.ofInt ((0x3004 : Word).toNat + (decode (0x0BFC : Word).toNat).pcOffset9) =
      0x3000 := by decide
  obtain ⟨m', hstep, hidles, hat⟩ :=
    h.place.branch (w := 0x0BFC) (j := 0) (Image.ordinary rfl (by decide)) rfl (by decide) hset
      htarget
  have hmask : (decode (0x0BFC : Word).toNat).nzp &&& m.processor.cond = 0 ↔
      m.processor.cond = .zero := by
    obtain hcond | hcond | hcond := hsingle <;> rw [hcond] <;> decide
  simp only [hmask] at hat
  refine ⟨m', hstep, of_place hat ?_ ?_ ?_, hidles.registers, hidles.cond⟩
  · rw [hidles.terminal]
    exact h.device
  · rw [hidles.terminal]
    exact h.pending
  · rw [hidles.terminal]
    exact h.written

/-- Halting. -/
theorem halt (h : m.Echoes 4 pending written) (hset : instructions .trap = true) :
    ∃ m', m.Steps instructions 1 m' ∧ m'.processor.status = .halted ∧
      m'.processor.registers = m.processor.registers ∧
      m'.processor.cond = m.processor.cond ∧ m'.terminal.device = .buffer ∧
      m'.terminal.pending = pending ∧ m'.terminal.written = written := by
  obtain ⟨m', hstep, hhalted, hregisters, hcond, -, hterminal⟩ :=
    h.place.halt (Image.ordinary rfl (by decide)) rfl hset
  refine ⟨m', hstep, hhalted, hregisters, hcond, ?_, ?_, ?_⟩
  · rw [hterminal]
    exact h.device
  · rw [hterminal]
    exact h.pending
  · rw [hterminal]
    exact (Terminal.written_flush _).trans h.written

/-! ## The loop -/

/-- **One character**: the machine is at the head of the loop again, unless it was a line feed. -/
theorem round {code : Nat} {rest : List Nat} (h : m.Echoes 0 (code :: rest) written)
    (hset : ∀ op, instructions op = true) :
    ∃ m', m.Steps instructions 4 m' ∧
      m'.Echoes (if code % 65536 = 10 then 4 else 0) rest (written ++ [BitVec.ofNat 8 code]) ∧
      m'.processor.register .r0 = BitVec.ofNat 16 code ∧
      (m'.processor.cond = .zero ↔ code % 65536 = 10) := by
  obtain ⟨m₁, hsteps₁, hat₁, hcode₁⟩ := h.getc (hset .trap)
  obtain ⟨m₂, hsteps₂, hat₂, hcode₂⟩ := hat₁.out (hset .trap)
  obtain ⟨m₃, hsteps₃, hat₃, hcode₃, hcond₃⟩ := hat₂.add (hset .add)
  have hsingle : m₃.processor.cond.Single := by
    rw [hcond₃]
    exact Condition.ofWord_cases _
  obtain ⟨m₄, hsteps₄, hat₄, hregisters₄, hcond₄⟩ := hat₃.br (hset .br) hsingle
  have hzero : m₃.processor.cond = .zero ↔ code % 65536 = 10 := by
    rw [hcond₃, Condition.ofWord_eq_zero_iff, hcode₂, hcode₁, ← BitVec.toNat_inj,
      BitVec.toNat_add, BitVec.toNat_ofNat]
    show (code % 65536 + 0xFFF6) % 65536 = 0 ↔ _
    omega
  have hbyte : (m₁.processor.register .r0).setWidth 8 = BitVec.ofNat 8 code := by
    apply BitVec.eq_of_toNat_eq
    rw [hcode₁, BitVec.toNat_setWidth, BitVec.toNat_ofNat, BitVec.toNat_ofNat]
    omega
  refine ⟨m₄, ((hsteps₁.trans hsteps₂).trans hsteps₃).trans hsteps₄, ?_, ?_, ?_⟩
  · simp only [hzero, hbyte] at hat₄
    exact hat₄
  · rw [Processor.register, hregisters₄]
    exact hcode₃.trans (hcode₂.trans hcode₁)
  · rw [hcond₄]
    exact hzero

/-- **All characters**, if there is no line feed among them. -/
theorem rounds {codes rest : List Nat} (h : m.Echoes 0 (codes ++ rest) written)
    (hset : ∀ op, instructions op = true) (hcodes : ∀ code ∈ codes, code % 65536 ≠ 10) :
    ∃ m', m.Steps instructions (4 * codes.length) m' ∧
      m'.Echoes 0 rest (written ++ codes.map (BitVec.ofNat 8)) := by
  induction codes generalizing m written with
  | nil =>
      rw [List.map_nil, List.append_nil]
      exact ⟨m, .refl m, h⟩
  | cons code codes ih =>
      obtain ⟨m₁, hfirst, hat, -, -⟩ := h.round hset
      rw [if_neg (hcodes code List.mem_cons_self)] at hat
      obtain ⟨m', hrest, hend⟩ := ih hat fun c hc => hcodes c (List.mem_cons_of_mem code hc)
      rw [List.append_assoc, List.singleton_append] at hend
      refine ⟨m', ?_, hend⟩
      rw [List.length_cons, Nat.mul_succ, Nat.add_comm]
      exact hfirst.trans hrest

/-- At the end of the input a strict terminal stops the machine at the head of the loop. -/
theorem underflow (h : m.Echoes 0 [] written) (hset : instructions .trap = true)
    (hpolicy : m.terminal.atEnd = .underflow) :
    ∃ m', Exec.cycle instructions m = .error (.fault .inputUnderflow) m' ∧
      m'.terminal.output = written := by
  have hpending : (m.advance 0xF020).resetCodes.terminal.pending = [] := h.pending
  have hread : (m.advance 0xF020).resetCodes.terminal.read =
      (.error (.fault .inputUnderflow), (m.advance 0xF020).resetCodes.terminal.read.2) := by
    unfold Terminal.read
    rw [hpending]
    dsimp only [Terminal.record]
    have hpolicy' : (m.advance 0xF020).resetCodes.terminal.atEnd = .underflow := hpolicy
    rw [hpolicy']
  have hroutine : Trap.ofVector? (decode (0xF020 : Word).toNat).trapVector = some .getc := rfl
  have hperform := Instruction.perform_trap _ (m.advance 0xF020).resetCodes hroutine
  rw [Exec.bind_apply, Trap.run_getc, Exec.bind_apply, Exec.readChar_apply, hread] at hperform
  have hpc : m.processor.pc ≠ Memory.keyboardStatus := by
    rw [h.place.pc]
    exact Image.ordinary rfl (by decide)
  have hcycle :=
    Exec.cycle_of_perform_error hpc (h.place.current rfl) (by decide) hset hperform
  refine ⟨_, hcycle, ?_⟩
  rw [Exec.output_of_cycle_error hcycle, Terminal.output, h.device]
  exact h.written

end Echoes

end Machine

/-! ## Whole runs -/

section Programs

variable {settings : Settings} {program : Program} {codes : List Nat} {journal : Journal}

/-- A run of the program comes to the head of the loop with all of its input. -/
theorem exists_echoes (hprogram : program.image? = some .echo)
    (hstart : Word.ofInt (settings.options.start 0x3000) = 0x3000) (journal : Journal)
    (codes : List Nat) (policy : EndOfInput) :
    ∃ s, program.session? settings.sorted.options (.buffer codes policy) journal = some s ∧
      s.machine.Echoes 0 codes [] ∧ s.machine.terminal.atEnd = policy := by
  obtain ⟨s, hs, hat, hterminal⟩ := Program.exists_at hprogram hstart
    (Nat.le_of_ble_eq_true rfl) (.buffer codes policy) journal
  refine ⟨s, hs, .of_place hat ?_ ?_ ?_, ?_⟩ <;> rw [hterminal] <;> rfl

end Programs

/-- **The program echoes every input.**  Whatever is typed before a line feed is written back, and
so is the line feed; then the program halts, and what comes after it is left.  Four instructions are
needed for each character, and one to halt.  A strict terminal on which no line feed is typed stops
the program when it asks for the next character. -/
theorem runOn_echo {settings : Settings} {program : Program}
    (hprogram : program.image? = some .echo)
    (hstart : Word.ofInt (settings.options.start 0x3000) = 0x3000)
    (hlimit : settings.options.maxSteps = none) (hset : ∀ op, settings.instructions op = true)
    {codes : List Nat} (hcodes : ∀ code ∈ codes, code % 65536 ≠ 10) (journal : Journal) :
    (∀ rest fuel, 4 * (codes.length + 1) + 1 < fuel →
      ∃ c r, runOn (codes ++ 10 :: rest) fuel settings program journal = some c ∧
        c.result = some r ∧ r.status = "ok" ∧ r.final.status = .halted ∧
        r.steps = 4 * (codes.length + 1) + 1 ∧
        r.output = codes.map (BitVec.ofNat 8) ++ [10] ∧
        r.final.register .r0 = 10 ∧ r.final.cond = .zero ∧ c.terminal.pending = rest) ∧
    (settings.options.strictInput = true → ∀ fuel, 4 * codes.length < fuel →
      ∃ c r report, runOn codes fuel settings program journal = some c ∧
        c.result = some r ∧ r.error = some report ∧ report.kind = .inputUnderflow ∧
        report.addr = 0x3000 ∧ r.steps = 4 * codes.length ∧
        r.output = codes.map (BitVec.ofNat 8)) := by
  constructor
  · intro rest fuel hfuel
    obtain ⟨s, hs, hat, -⟩ := exists_echoes hprogram hstart journal (codes ++ 10 :: rest)
      (.ofStrict settings.options.strictInput)
    obtain ⟨m₁, hsteps₁, hat₁⟩ := hat.rounds hset hcodes
    obtain ⟨m₂, hsteps₂, hat₂, hregister₂, hcond₂⟩ := hat₁.round hset
    obtain ⟨m₃, hsteps₃, hhalted, hregisters₃, hcond₃, hdevice, hpending, hwritten⟩ :=
      Machine.Echoes.halt hat₂ (hset .trap)
    have hstopped : m₃.processor.running = false := by
      rw [Processor.running, hhalted]
      rfl
    obtain ⟨c, hrun, hleaves⟩ := run_of_halted hlimit hs ((hsteps₁.trans hsteps₂).trans hsteps₃)
      hstopped (by omega)
    obtain ⟨r, hr, hsteps, hfinal, houtput, herror⟩ := hleaves.result
    refine ⟨c, r, hrun, hr, ?_, ?_, ?_, ?_, ?_, ?_, ?_⟩
    · rw [Result.status, herror]
      rfl
    · rw [hfinal, hhalted]
    · omega
    · rw [houtput, Terminal.output, hdevice]
      exact hwritten
    · rw [hfinal, Processor.register, hregisters₃]
      exact hregister₂
    · rw [hfinal, hcond₃]
      exact hcond₂.2 rfl
    · rw [hleaves.terminal]
      exact hpending
  · intro hstrict fuel hfuel
    obtain ⟨s, hs, hat, hpolicy⟩ := exists_echoes hprogram hstart journal codes
      (.ofStrict settings.options.strictInput)
    rw [← List.append_nil codes] at hat
    obtain ⟨m₁, hsteps₁, hat₁⟩ := hat.rounds hset hcodes
    have hpolicy₁ : m₁.terminal.atEnd = .underflow := by
      rw [hsteps₁.closed (Machine.closed_atEnd _) hpolicy, hstrict]
      rfl
    obtain ⟨m₂, hcycle, hwritten⟩ := hat₁.underflow (hset .trap) hpolicy₁
    obtain ⟨c, hrun, hleaves⟩ :=
      run_of_fault hlimit hs hsteps₁ hat₁.running hcycle hfuel
    obtain ⟨r, hr, hsteps, -, houtput, herror⟩ := hleaves.result
    refine ⟨c, r, _, hrun, hr, herror, rfl, ?_, hsteps, houtput.trans hwritten⟩
    show (m₁.processor.pc.toNat : Int) = 0x3000
    rw [hat₁.pc]
    rfl

/-- Goes by the usual options, but does not read past the end of the input. -/
def Settings.demanding : Settings := { options := { strictInput := true } }

/-- A greeting is echoed up to its line feed; without one the run fails after it. -/
theorem runOn_echo_greeting :
    (∃ c r, runOn [104, 101, 121, 10, 104, 105] 18 .demanding .echo ⟨.error, #[]⟩ = some c ∧
      c.result = some r ∧ r.status = "ok" ∧ r.steps = 17 ∧ r.output = [104, 101, 121, 10] ∧
      c.terminal.pending = [104, 105]) ∧
    ∃ c r report, runOn [104, 101, 121] 13 .demanding .echo ⟨.error, #[]⟩ = some c ∧
      c.result = some r ∧ r.error = some report ∧ report.kind = .inputUnderflow ∧
      r.steps = 12 ∧ r.output = [104, 101, 121] := by
  have hprogram : Program.echo.image? = some .echo := by decide
  have hstart : Word.ofInt (Settings.demanding.options.start 0x3000) = 0x3000 := by decide
  have hcodes : ∀ code ∈ [104, 101, 121], code % 65536 ≠ 10 := by decide
  have hechoes := runOn_echo hprogram hstart rfl (fun _ => rfl) hcodes ⟨.error, #[]⟩
  obtain ⟨c, r, hrun, hr, hstatus, -, hsteps, houtput, -, -, hpending⟩ :=
    hechoes.1 [104, 105] 18 (by decide)
  obtain ⟨c', r', report, hrun', hr', herror, hkind, -, hsteps', houtput'⟩ :=
    hechoes.2 rfl 13 (by decide)
  exact ⟨⟨c, r, hrun, hr, hstatus, hsteps, houtput, hpending⟩,
    c', r', report, hrun', hr', herror, hkind, hsteps', houtput'⟩

end LittleComputer
