import LittleComputer.Proofs.Traces

/-!
# Where the output comes from

Four of the trap routines write.  What the other instructions and the instruction that a run fails
in have to do with the output is nothing at all.

* `Memory.StringAt` — the string at an address, cell by cell; `Memory.stringAt_of_string?` finds it.
* `Machine.Emits` — **the bytes that a machine writes by carrying out a word**; there is one choice
  of them at most (`Machine.Emits.unique`).
* `Instruction.terminal_of_perform` — instructions other than traps read at most.
* `Exec.terminal_of_cycle` — what a completed cycle does at the terminal.
* `Exec.emits_of_cycle` — it writes the bytes of its word.
* `Session.emitted_after` — what some turns have written is what each of them has, in order.
* `run_output` — **so it is with the output of a run**.
-/

namespace LittleComputer

/-! ## Strings -/

namespace Memory

/-- `m.StringAt a words` : from `a` on there are these words, and a zero after them. -/
inductive StringAt (m : Memory) : Word → List Word → Prop where
  /-- A zero ends the string. -/
  | nil {a : Word} (zero : m.peek a = 0) : StringAt m a []
  /-- Any other word belongs to it; after the last cell comes the first. -/
  | cons {a : Word} {words : List Word} (nonzero : m.peek a ≠ 0)
      (rest : StringAt m (a + 1) words) : StringAt m a (m.peek a :: words)

/-- There is one string at an address at most. -/
theorem StringAt.unique {m : Memory} {a : Word} {words words' : List Word}
    (h : m.StringAt a words) (h' : m.StringAt a words') : words = words' := by
  induction h generalizing words' with
  | nil zero =>
      cases h' with
      | nil _ => rfl
      | cons nonzero _ => exact absurd zero nonzero
  | cons nonzero _ ih =>
      cases h' with
      | nil zero => exact absurd zero nonzero
      | cons _ rest => rw [ih rest]

/-- The words of as many cells as there are before the first zero are a string. -/
theorem stringAt_of_first_zero {m : Memory} {n : Nat} {a : Word}
    (hzero : m.peek (a + BitVec.ofNat 16 n) = 0)
    (hbefore : ∀ i < n, m.peek (a + BitVec.ofNat 16 i) ≠ 0) :
    m.StringAt a ((List.range n).map fun i => m.peek (a + BitVec.ofNat 16 i)) := by
  induction n generalizing a with
  | zero =>
      rw [BitVec.add_zero] at hzero
      exact .nil hzero
  | succ n ih =>
      have hnext : ∀ i, a + BitVec.ofNat 16 (i + 1) = a + 1 + BitVec.ofNat 16 i := by
        intro i
        rw [Nat.add_comm, BitVec.ofNat_add, BitVec.add_assoc]
        rfl
      have hfirst : m.peek a ≠ 0 := by
        have h := hbefore 0 (Nat.succ_pos n)
        rwa [BitVec.add_zero] at h
      rw [hnext] at hzero
      rw [List.range_succ_eq_map, List.map_cons, List.map_map, BitVec.add_zero]
      refine .cons hfirst ?_
      simp only [Function.comp_def, Nat.succ_eq_add_one, hnext]
      refine ih hzero fun i hi => ?_
      rw [← hnext]
      exact hbefore (i + 1) (Nat.succ_lt_succ hi)

theorem stringAt_of_string? {m : Memory} {a : Word} {words : List Word}
    (h : m.string? a = some words) : m.StringAt a words := by
  rw [string?, Option.map_eq_some_iff] at h
  obtain ⟨n, hn, rfl⟩ := h
  obtain ⟨-, -, hzero, hbefore⟩ := (m.zeroFrom?_eq_some_iff a 0 wordCount n).1 hn
  exact stringAt_of_first_zero hzero fun i hi => hbefore i (Nat.zero_le i) hi

end Memory

/-! ## What words write -/

namespace Word

/-- The low byte of a word. -/
def lowByte (w : Word) : Byte := w.extractLsb' 0 8

/-- The high byte of a word. -/
def highByte (w : Word) : Byte := w.extractLsb' 8 8

/-- The characters that are packed into a word. -/
def packed (w : Word) : List Byte :=
  if w.highByte = 0 then [w.lowByte] else [w.lowByte, w.highByte]

theorem ofInt_toNat_eq_lowByte (w : Word) : BitVec.ofInt 8 w.toNat = w.lowByte := by
  apply BitVec.eq_of_toNat_eq
  simp [lowByte]

/-- The bytes that are written for a packed word are those. -/
theorem map_unpack (w : Word) : (Trap.unpack w).map (BitVec.ofInt 8) = w.packed := by
  have hw := w.isLt
  have hhigh : w.highByte.toNat = w.toNat / 256 := by
    simp [highByte, Nat.shiftRight_eq_div_pow]
    omega
  have hlow : w.lowByte.toNat = w.toNat % 256 := by simp [lowByte]
  have hzero : w.highByte = 0 ↔ w.toNat / 256 = 0 := by
    rw [← hhigh, ← BitVec.toNat_inj]
    rfl
  unfold Trap.unpack packed
  simp only [hzero]
  split
  · simp [← hlow]
  · simp [← hlow, ← hhigh]

/-- The word is a trap with this vector. -/
def IsTrap (w : Word) (vector : Byte) : Prop :=
  w.extractLsb' 12 4 = 0xF#4 ∧ w.lowByte = vector

/-- The vector of a trap is its low byte. -/
theorem lowByte_of_routine {w : Word} {routine : Trap}
    (hv : Trap.ofVector? (decode w.toNat).trapVector = some routine) :
    w.lowByte = BitVec.ofNat 8 routine.vector := by
  rw [← (Trap.ofVector?_eq_some_iff _ _).1 hv, Instruction.trapVector_decode,
    BitVec.ofNat_toNat, BitVec.setWidth_eq]
  rfl

end Word

/-- `m.Emits w bytes` : by carrying out `w`, the machine `m` writes these bytes. -/
inductive Machine.Emits (m : Machine) (w : Word) : List Byte → Prop where
  /-- A single character is the low byte of the first register. -/
  | out (trap : w.IsTrap 0x21) : Emits m w [(m.processor.register .r0).lowByte]
  /-- An echo is that of the next character, or of the end of the input. -/
  | readEcho (trap : w.IsTrap 0x23) :
      Emits m w [(m.terminal.pending.head?.map (BitVec.ofNat 8)).getD 0xFF]
  /-- A string is written one character a word. -/
  | puts {words : List Word} (trap : w.IsTrap 0x22)
      (string : m.memory.StringAt (m.processor.register .r0) words) :
      Emits m w (words.map Word.lowByte)
  /-- A packed string is written one or two characters a word. -/
  | putsp {words : List Word} (trap : w.IsTrap 0x24)
      (string : m.memory.StringAt (m.processor.register .r0) words) :
      Emits m w (words.flatMap Word.packed)
  /-- Nothing else writes. -/
  | silent (other : ∀ vector, w.IsTrap vector → vector ∉ [0x21, 0x22, 0x23, 0x24]) : Emits m w []

/-- **A word makes a machine write one thing at most.** -/
theorem Machine.Emits.unique {m : Machine} {w : Word} {bytes bytes' : List Byte}
    (h : m.Emits w bytes) (h' : m.Emits w bytes') : bytes = bytes' := by
  -- no word is a trap with two vectors
  have hdiffer : ∀ {v v' : Byte}, w.IsTrap v → w.IsTrap v' → v ≠ v' → False :=
    fun trap trap' hne => hne (trap.2.symm.trans trap'.2)
  cases h with
  | out trap =>
      cases h' with
      | out _ => rfl
      | silent other => exact absurd (by decide) (other _ trap)
      | _ trap' => exact (hdiffer trap trap' (by decide)).elim
  | readEcho trap =>
      cases h' with
      | readEcho _ => rfl
      | silent other => exact absurd (by decide) (other _ trap)
      | _ trap' => exact (hdiffer trap trap' (by decide)).elim
  | puts trap string =>
      cases h' with
      | puts _ string' => rw [string.unique string']
      | silent other => exact absurd (by decide) (other _ trap)
      | _ trap' => exact (hdiffer trap trap' (by decide)).elim
  | putsp trap string =>
      cases h' with
      | putsp _ string' => rw [string.unique string']
      | silent other => exact absurd (by decide) (other _ trap)
      | _ trap' => exact (hdiffer trap trap' (by decide)).elim
  | silent other =>
      cases h' with
      | silent _ => rfl
      | _ trap => exact absurd (by decide) (other _ trap)

/-! ## What terminals tell about their output -/

namespace Terminal

/-- `t.Prints bytes t'` : `t'` has written these bytes since the codes of `t` were reset. -/
structure Prints (t : Terminal) (bytes : List Byte) (t' : Terminal) : Prop where
  /-- The bytes come after those from before. -/
  written : t'.written = t.written ++ bytes
  /-- The last of them is remembered. -/
  lastOut : t'.lastOut = bytes.getLast?

theorem lastOut_writeAll (t : Terminal) (codes : List Int) :
    (t.writeAll codes).lastOut = (codes.map (BitVec.ofInt 8)).getLast?.or t.lastOut := by
  induction codes generalizing t with
  | nil => rfl
  | cons code rest ih =>
      show ((t.write code).writeAll rest).lastOut = _
      rw [ih]
      cases rest with
      | nil => rfl
      | cons code' rest => simp [List.getLast?_cons]

namespace Prints

variable {t t' : Terminal} {bytes : List Byte}

theorem resetCodes (t : Terminal) : t.Prints [] t.resetCodes :=
  ⟨(List.append_nil _).symm, rfl⟩

theorem read {result : Except Stop Nat} {u : Terminal} (h : t.Prints bytes t')
    (hread : t'.read = (result, u)) : t.Prints bytes u := by
  have hwritten := t'.written_read
  have hlast := t'.lastOut_read
  rw [hread] at hwritten hlast
  exact ⟨hwritten.trans h.written, hlast.trans h.lastOut⟩

theorem flush (h : t.Prints bytes t') : t.Prints bytes t'.flush :=
  ⟨(written_flush t').trans h.written, h.lastOut⟩

theorem writeAll (h : t.Prints [] t') (codes : List Int) :
    t.Prints (codes.map (BitVec.ofInt 8)) (t'.writeAll codes) := by
  constructor
  · rw [written_writeAll, h.written, List.append_nil]
  · rw [lastOut_writeAll, h.lastOut, List.getLast?_nil, Option.or_none]

end Prints

end Terminal

/-! ## Steps -/

/-- A load that gives a word uses the terminal for a read at most, and it gives a fixed word if it
does. -/
theorem Exec.terminal_of_load {address : Int} {v : Word} {m m' : Machine}
    (h : load address m = .ok v m') :
    m'.terminal = m.terminal ∨
      v = Memory.keyboardReady ∧ ∃ code, m.terminal.read = (.ok code, m'.terminal) := by
  obtain ⟨-, -, rfl⟩ | ⟨-, hv, code, t, hread, rfl⟩ := load_cases h
  · exact .inl rfl
  · exact .inr ⟨hv, code, hread⟩

namespace Instruction

open Exec

variable {i : Instruction} {op : Opcode} {m m' : Machine} {target : Option Int}

/-- An instruction other than a trap uses the terminal for a read at most. -/
theorem terminal_of_perform (hop : op ≠ .trap) (h : i.perform op m = .ok target m') :
    m'.terminal = m.terminal ∨ ∃ code, m.terminal.read = (.ok code, m'.terminal) := by
  cases op with
  | add | and | not | br | jmp | jsr | lea | st | str =>
      simp only [perform_add, perform_and, perform_not, perform_br, perform_jmp, perform_jsr,
        perform_lea, perform_st, perform_str] at h
      cases h
      exact .inl rfl
  | rti | res => cases h
  | ld =>
      rw [perform_ld, bind_finish_eq_ok] at h
      obtain ⟨v, m₁, hv, -, rfl⟩ := h
      exact (terminal_of_load hv).imp_right And.right
  | ldr =>
      rw [perform_ldr, bind_finish_eq_ok] at h
      obtain ⟨v, m₁, hv, -, rfl⟩ := h
      exact (terminal_of_load hv).imp_right And.right
  | sti =>
      rw [perform_sti, bind_finish_eq_ok] at h
      obtain ⟨v, m₁, hv, -, rfl⟩ := h
      exact (terminal_of_load hv).imp_right And.right
  | ldi =>
      rw [perform_ldi, bind_eq_ok] at h
      obtain ⟨pointer, m₁, hpointer, h⟩ := h
      rw [bind_finish_eq_ok] at h
      obtain ⟨v, m₂, hv, -, rfl⟩ := h
      obtain hsame | ⟨rfl, hread⟩ := terminal_of_load hpointer
      · rw [← hsame]
        exact (terminal_of_load hv).imp_right And.right
      · -- what such a pointer leads to is read as a plain cell
        obtain ⟨-, -, rfl⟩ | ⟨hk, -⟩ := load_cases hv
        · exact .inr hread
        · exact absurd hk (by decide)
  | trap => exact absurd rfl hop

end Instruction

namespace Exec

variable {instructions : InstructionSet} {m m' m₁ : Machine} {w : Word} {target : Option Int}

/-- The character that has been read is echoed by its low byte. -/
theorem echo_of_read {t t' : Terminal} {code : Nat} (h : t.read = (.ok code, t')) :
    [(code : Int)].map (BitVec.ofInt 8) =
      [(t.pending.head?.map (BitVec.ofNat 8)).getD 0xFF] := by
  obtain ⟨hcode, -, -⟩ := Terminal.read_ok_cases h
  rw [hcode, List.map_singleton, BitVec.ofInt_natCast]
  cases t.pending with
  | nil => rfl
  | cons next rest => rfl

/-- A trap routine writes the bytes of its trap. -/
theorem emits_of_run {routine : Trap} (hop : w.opcode = .trap)
    (hv : Trap.ofVector? (decode w.toNat).trapVector = some routine)
    (h : routine.run (m.advance w).resetCodes = .ok () m₁) :
    ∃ bytes, m.Emits w bytes ∧ m.terminal.Prints bytes m₁.terminal := by
  have hvector := Word.lowByte_of_routine hv
  have htrap : w.IsTrap (BitVec.ofNat 8 routine.vector) :=
    ⟨(Word.opcode_eq_trap_iff w).1 hop, hvector⟩
  have honly : ∀ vector, w.IsTrap vector → vector = BitVec.ofNat 8 routine.vector :=
    fun vector hw => hw.2.symm.trans hvector
  have hreset := Terminal.Prints.resetCodes m.terminal
  cases routine with
  | getc =>
      rw [Trap.run_getc, bind_finish_eq_ok] at h
      obtain ⟨code, m₂, hchar, -, rfl⟩ := h
      obtain ⟨t, hread, rfl⟩ := readChar_cases hchar
      refine ⟨[], .silent fun vector hw => ?_, (hreset.read hread).flush⟩
      rw [honly vector hw]
      decide
  | out =>
      cases h
      refine ⟨_, .out htrap, ?_⟩
      rw [← Word.ofInt_toNat_eq_lowByte]
      exact hreset.writeAll [((m.processor.register .r0).toNat : Int)]
  | puts =>
      rw [Trap.run_puts, bind_finish_eq_ok] at h
      obtain ⟨words, m₂, hstring, -, rfl⟩ := h
      obtain ⟨hwords, rfl⟩ := string_cases hstring
      refine ⟨_, .puts htrap (Memory.stringAt_of_string? hwords), ?_⟩
      have hbytes : (words.map fun v => (v.toNat : Int)).map (BitVec.ofInt 8) =
          words.map Word.lowByte := by
        rw [List.map_map]
        exact List.map_congr_left fun v _ => Word.ofInt_toNat_eq_lowByte v
      rw [← hbytes]
      exact (hreset.writeAll _).flush
  | readEcho =>
      rw [Trap.run_readEcho, bind_finish_eq_ok] at h
      obtain ⟨code, m₂, hchar, -, rfl⟩ := h
      obtain ⟨t, hread, rfl⟩ := readChar_cases hchar
      refine ⟨_, .readEcho htrap, ?_⟩
      have hecho := echo_of_read hread
      have hprints := (hreset.read hread).writeAll [(code : Int)]
      rw [hecho] at hprints
      exact hprints
  | putsp =>
      rw [Trap.run_putsp, bind_finish_eq_ok] at h
      obtain ⟨words, m₂, hstring, -, rfl⟩ := h
      obtain ⟨hwords, rfl⟩ := string_cases hstring
      refine ⟨_, .putsp htrap (Memory.stringAt_of_string? hwords), ?_⟩
      have hbytes : (words.flatMap Trap.unpack).map (BitVec.ofInt 8) =
          words.flatMap Word.packed := by
        simp [List.map_flatMap, Word.map_unpack]
      rw [← hbytes]
      exact (hreset.writeAll _).flush
  | halt =>
      cases h
      refine ⟨[], .silent fun vector hw => ?_, hreset.flush⟩
      rw [honly vector hw]
      decide

/-- **What a completed cycle does at the terminal**: a trap does what its routine does, and anything
else reads at most. -/
theorem terminal_of_cycle (h : cycle instructions m = .ok w m') :
    (∃ routine m₁, w.opcode = .trap ∧
      Trap.ofVector? (decode w.toNat).trapVector = some routine ∧
      routine.run (m.advance w).resetCodes = .ok () m₁ ∧ m'.terminal = m₁.terminal) ∨
    (w.opcode ≠ .trap ∧ (m'.terminal = m.terminal.resetCodes ∨
      ∃ code, m.terminal.resetCodes.read = (.ok code, m'.terminal))) := by
  obtain ⟨-, -, -, target, m₁, hperform, rfl⟩ := cycle_ok_cases h
  have hjump : (m₁.jumpTo target).terminal = m₁.terminal := by cases target <;> rfl
  rw [hjump]
  by_cases hop : w.opcode = .trap
  · rw [hop] at hperform
    obtain ⟨-, routine, hv, hrun⟩ := Instruction.trap_cases hperform
    exact .inl ⟨routine, m₁, hop, hv, hrun, rfl⟩
  · exact .inr ⟨hop, Instruction.terminal_of_perform hop hperform⟩

/-- **Every completed cycle writes the bytes of its word**, and the last of them is remembered. -/
theorem emits_of_cycle (h : cycle instructions m = .ok w m') :
    w = m.current ∧ ∃ bytes, m.Emits w bytes ∧ m.terminal.Prints bytes m'.terminal := by
  obtain ⟨-, hw, -⟩ := cycle_ok_cases h
  refine ⟨hw, ?_⟩
  obtain ⟨routine, m₁, hop, hv, hrun, hsame⟩ | ⟨hop, hquiet⟩ := terminal_of_cycle h
  · rw [hsame]
    exact emits_of_run hop hv hrun
  · have hreset := Terminal.Prints.resetCodes m.terminal
    refine ⟨[], .silent fun vector htrap => ?_, ?_⟩
    · exact absurd ((Word.opcode_eq_trap_iff w).2 htrap.1) hop
    · obtain hsame | ⟨code, hread⟩ := hquiet
      · rw [hsame]
        exact hreset
      · exact hreset.read hread

end Exec

/-! ## Runs -/

namespace Session

variable {settings : Settings} {s t : Session}

/-- **What some turns have written is what each of them has, in order.** -/
theorem emitted_after {n : Nat} (h : after settings n s = some t) :
    ∃ emitted : List (List Byte), emitted.length = n ∧
      t.machine.terminal.written = s.machine.terminal.written ++ emitted.flatten ∧
      ∀ i bytes, emitted[i]? = some bytes → ∃ u v, after settings i s = some u ∧
        after settings (i + 1) s = some v ∧
        Exec.cycle settings.instructions u.machine = .ok u.machine.current v.machine ∧
        u.machine.Emits u.machine.current bytes ∧
        v.machine.terminal.lastOut = bytes.getLast? := by
  induction n generalizing t with
  | zero =>
      cases h
      exact ⟨[], rfl, (List.append_nil _).symm, fun i bytes hi => by simp at hi⟩
  | succ n ih =>
      have hlast := h
      rw [after_succ_eq_some_iff'] at h
      obtain ⟨u, hu, hturn⟩ := h
      obtain ⟨emitted, hlength, hwritten, hemitted⟩ := ih hu
      obtain ⟨-, -, w, m, hcycle, rfl⟩ := turn_eq_next_iff.1 hturn
      obtain ⟨rfl, bytes, hemits, hprints⟩ := Exec.emits_of_cycle hcycle
      refine ⟨emitted ++ [bytes], by simp [hlength], ?_, fun i bytes' hi => ?_⟩
      · rw [List.flatten_append, List.flatten_singleton, ← List.append_assoc, ← hwritten]
        exact hprints.written
      · by_cases hlt : i < n
        · rw [List.getElem?_append_left (by omega)] at hi
          exact hemitted i bytes' hi
        · -- they are the bytes of the last turn
          rw [List.getElem?_append_right (by omega), List.getElem?_singleton] at hi
          split at hi
          · cases hi
            have hin : i = n := by omega
            subst hin
            exact ⟨u, _, hu, hlast, hcycle, hemits, hprints.lastOut⟩
          · cases hi

/-- The row of a turn shows the codes that the turn has left, if it shows codes. -/
theorem codes_of_after_lt (htrace : settings.options.trace = true)
    (hcodes : settings.options.traceTerminal = true) (hs : s.trace = #[]) {n i : Nat} {v : Session}
    (h : after settings n s = some t) (hlt : i < n) (hv : after settings (i + 1) s = some v) :
    ∃ row, t.trace.toList[i]? = some row ∧
      row.codes = some (v.machine.terminal.lastIn, v.machine.terminal.lastOut) := by
  rw [← length_trace htrace hs h] at hlt
  refine ⟨_, List.getElem?_eq_getElem hlt, ?_⟩
  obtain ⟨u, v', w, hu, hturn, -, hrow⟩ :=
    step_of_row htrace hs h (List.getElem?_eq_getElem hlt)
  have hsame : v' = v :=
    Option.some.inj ((after_succ_eq_some_iff'.2 ⟨u, hu, hturn⟩).symm.trans hv)
  rw [hrow, row, TraceRow.after, if_pos hcodes, hsame]

/-- The turn that ends a run writes nothing. -/
theorem output_of_ends {ending : Ending} {o : Options} {r : Result} (h : Ends settings s ending t)
    (hr : (t.close ending).result? o ending = some r) : r.output = s.machine.terminal.output := by
  have houtput : t.machine.terminal.flush.output = s.machine.terminal.output := by
    rw [Terminal.output_flush]
    cases h with
    | halted _ => rfl
    | exhausted _ _ => rfl
    | faulted _ _ hcycle =>
        have hleft := Exec.output_of_cycle_error hcycle
        exact hleft
    | interrupted _ _ hcycle => exact Exec.output_of_cycle_error hcycle
  obtain ⟨-, rfl⟩ | ⟨report, -, rfl⟩ := result?_cases hr
  · exact houtput
  · exact houtput

end Session

/-- **The output of a run is what its completed steps have written, in order.**  A step writes the
bytes that its word makes the machine write; the instruction that a run fails in adds nothing.
Where a trace shows codes, the row of a step shows the last byte that the step has written. -/
theorem run_output {settings : Settings} {program : Program} {codes : List Nat}
    {policy : EndOfInput} {journal : Journal} {fuel : Nat} {c : Conclusion} {r : Result}
    (h : run fuel settings program (.buffer codes policy) journal = some c)
    (hr : c.result = some r) :
    ∃ emitted : List (List Byte), emitted.length = r.steps ∧ r.output = emitted.flatten ∧
      ∀ i bytes, emitted[i]? = some bytes →
        (∃ s t u, program.session? settings.sorted.options (.buffer codes policy) journal = some s ∧
          s.after settings.sorted i = some t ∧ s.after settings.sorted (i + 1) = some u ∧
          Exec.cycle settings.instructions t.machine = .ok t.machine.current u.machine ∧
          t.machine.Emits t.machine.current bytes) ∧
        (settings.options.trace = true → settings.options.traceTerminal = true →
          ∃ row inCode, r.trace[i]? = some row ∧ row.codes = some (inCode, bytes.getLast?)) := by
  cases hs : program.session? settings.sorted.options (.buffer codes policy) journal with
  | none =>
      obtain ⟨e, journal', hrun⟩ := run_of_session?_eq_none hs
      rw [hrun] at h
      cases h
      cases hr
      exact ⟨[], rfl, rfl, fun i bytes hi => by simp at hi⟩
  | some s =>
      obtain ⟨n, t, ending, u, -, hafter, hends, rfl⟩ := (run_eq_some_iff hs).1 h
      obtain ⟨image, journal', rfl⟩ := Program.session?_cases hs
      obtain ⟨emitted, hlength, hwritten, hemitted⟩ := Session.emitted_after hafter
      obtain ⟨hsteps, hrows⟩ := Session.steps_of_ends hends hr
      have hdevice : t.machine.terminal.device = .buffer :=
        Session.closed_after (Machine.closed_device .buffer) hafter rfl
      refine ⟨emitted, ?_, ?_, fun i bytes hi => ⟨?_, fun htrace hcodes => ?_⟩⟩
      · rw [hlength, hsteps, Session.steps_after hafter]
        exact (Nat.zero_add n).symm
      · rw [Session.output_of_ends hends hr, Terminal.output, hdevice]
        exact hwritten
      · obtain ⟨v, v', hv, hv', hcycle, hemits, -⟩ := hemitted i bytes hi
        exact ⟨_, v, v', rfl, hv, hv', hcycle, hemits⟩
      · obtain ⟨v, v', hv, hv', -, -, hlast⟩ := hemitted i bytes hi
        have hlt : i < n := by
          obtain ⟨hi, -⟩ := List.getElem?_eq_some_iff.1 hi
          rwa [hlength] at hi
        have hrecords : settings.sorted.options.trace = true := htrace
        have hshows : settings.sorted.options.traceTerminal = true := hcodes
        obtain ⟨row, hrow, hshown⟩ :=
          Session.codes_of_after_lt hrecords hshows rfl hafter hlt hv'
        rw [hrows, ← hlast]
        exact ⟨row, _, hrow, hshown⟩

/-- A program that writes the same string as plain and as packed characters, echoes a character and
writes it again, writes an empty string, and at last waits for a character in vain. -/
def Program.chatting : Program :=
  .image ⟨0x3000, [0xE007, 0xF022, 0xF024, 0xF023, 0xF021, 0xE004, 0xF022, 0xF023,
    0x4148, 0x0069, 0x0000]⟩

theorem run_output_chatting :
    ∃ c r, ∃ emitted : List (List Byte), run 9 { options := { trace := true } } .chatting
        (.buffer [0x1F642] (.ofStrict true)) ⟨.error, #[]⟩ = some c ∧
      c.result = some r ∧ r.steps = 7 ∧ r.final.status = .faulted ∧
      r.output = [0x48, 0x69, 0x48, 0x41, 0x69, 0x42, 0x42] ∧
      emitted.length = 7 ∧ r.output = emitted.flatten ∧ emitted[6]? = some [] := by
  have hrun : run 9 { options := { trace := true } } .chatting
      (.buffer [0x1F642] (.ofStrict true)) ⟨.error, #[]⟩ = some _ := rfl
  obtain ⟨emitted, hlength, houtput, hemitted⟩ := run_output hrun rfl
  refine ⟨_, _, emitted, hrun, rfl, rfl, rfl, rfl, hlength, houtput, ?_⟩
  have hlt : 6 < emitted.length := by
    rw [hlength]
    exact Nat.lt_succ_self 6
  obtain ⟨-, hrow⟩ := hemitted 6 _ (List.getElem?_eq_getElem hlt)
  obtain ⟨row, inCode, hrow, hcodes⟩ := hrow rfl rfl
  cases hrow
  -- its row shows no byte
  have hnone : emitted[6].getLast? = none := (congrArg Prod.snd (Option.some.inj hcodes)).symm
  rw [List.getElem?_eq_getElem hlt, List.getLast?_eq_none_iff.1 hnone]

end LittleComputer
