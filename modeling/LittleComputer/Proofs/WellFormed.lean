import LittleComputer.Proofs.PlainRuns

/-!
# Well-formed runs

Registers, cells and the program counter of the plain machine are integers of any size, and so are
origins, words, addresses, watch lists and the codes of characters.  Whatever they are, all that is
in the machine stays in range, every access finds its entry, and a run fails only in the ways it is
meant to.

* `Plain.Session.WellFormed` — what holds of a plain session at every moment;
  `Session.Rendered.wellFormed` says that sessions which hold words are so.
* `Session.single_step`, `Session.single_after` — exactly one flag is set all along, in the machine
  and in every row.
* `Exec.kind_of_cycle` — the kinds of fault that an instruction can be.
* `Plain.RunsWell`, `run_wellFormed` — **well-formedness** of whole runs and of what they leave.
-/

namespace LittleComputer

/-- A single flag has one name. -/
theorem Condition.Single.name_mem {c : Condition} (h : c.Single) :
    c.name? ∈ [some "POSITIVE", some "ZERO", some "NEGATIVE"] := by
  obtain rfl | rfl | rfl := h
  · exact .head _
  · exact .tail _ (.head _)
  · exact .tail _ (.tail _ (.head _))

/-! ## Integers in range -/

namespace Plain

/-- An integer that is a word. -/
def InRange (value : Int) : Prop := 0 ≤ value ∧ value ≤ 0xFFFF

theorem inRange_plain (w : Word) : InRange w.plain := by
  have hlt := w.isLt
  constructor <;> rw [Word.plain] <;> omega

/-- What holds of a processor at every moment. -/
structure Processor.WellFormed (p : Processor) : Prop where
  /-- There are eight registers. -/
  size : p.registers.size = 8
  /-- They hold words. -/
  registers : ∀ value ∈ p.registers, InRange value
  /-- The program counter is an address. -/
  pc : InRange p.pc
  /-- Exactly one flag is set, and it has a name of its own. -/
  cond : p.cond.Single ∧ p.cond.name? ∈ [some "POSITIVE", some "ZERO", some "NEGATIVE"]

/-- What holds of a row. -/
structure TraceRow.WellFormed (row : TraceRow) : Prop where
  /-- The address and the word are in range. -/
  fetched : InRange row.addr ∧ InRange row.instr
  /-- It shows eight registers that hold words. -/
  registers : row.registers.length = 8 ∧ ∀ value ∈ row.registers, InRange value
  /-- It shows an address. -/
  pc : InRange row.pc
  /-- It shows exactly one flag, which has a name of its own. -/
  cond : row.cond.Single ∧ row.cond.name? ∈ [some "POSITIVE", some "ZERO", some "NEGATIVE"]
  /-- It shows words at addresses. -/
  watched : ∀ cell ∈ row.watched, InRange cell.1 ∧ InRange cell.2
  /-- What it says to have been written is a byte. -/
  lastOut : ∀ lastIn code, row.codes = some (lastIn, some code) → 0 ≤ code ∧ code ≤ 0xFF

/-- What holds of a session at every moment of a run. -/
structure Session.WellFormed {σ : Type} [Provider σ] [Visible σ] (p : Session σ) : Prop where
  /-- The registers, the program counter and the flags are in range. -/
  processor : p.machine.processor.WellFormed
  /-- There are as many cells as addresses. -/
  size : p.machine.memory.cells.size = 65536
  /-- They hold words. -/
  cells : ∀ value ∈ p.machine.memory.cells, InRange value
  /-- What has been put out is bytes. -/
  written : ∀ code ∈ (Visible.seen p.machine.port.own).written, code ≤ 0xFF
  /-- So it was after every completed instruction. -/
  rows : ∀ row ∈ p.trace, row.WellFormed

/-- What holds of the result of a run. -/
structure Result.WellFormed (r : Result) : Prop where
  /-- The final state is in range. -/
  final : r.final.WellFormed
  /-- So is every row. -/
  rows : ∀ row ∈ r.trace, row.WellFormed
  /-- Output is bytes. -/
  output : ∀ code ∈ r.output, code ≤ 0xFF

end Plain

theorem Processor.wellFormed_plain {p : Processor} (h : p.cond.Single) : p.plain.WellFormed where
  size := by simp [plain]
  registers value hvalue := by
    obtain ⟨w, -, rfl⟩ := Array.mem_map.1 hvalue
    exact Plain.inRange_plain w
  pc := Plain.inRange_plain p.pc
  cond := ⟨h, h.name_mem⟩

theorem TraceRow.wellFormed_plain {row : TraceRow} (h : row.cond.Single) :
    row.plain.WellFormed where
  fetched := ⟨Plain.inRange_plain row.addr, Plain.inRange_plain row.instr⟩
  registers := by
    refine ⟨by simp [plain], fun value hvalue => ?_⟩
    obtain ⟨w, -, rfl⟩ := List.mem_map.1 hvalue
    exact Plain.inRange_plain w
  pc := Plain.inRange_plain row.pc
  cond := ⟨h, h.name_mem⟩
  watched cell hcell := by
    obtain ⟨⟨a, w⟩, -, rfl⟩ := List.mem_map.1 hcell
    exact ⟨Plain.inRange_plain a, Plain.inRange_plain w⟩
  lastOut lastIn code hcodes := by
    obtain ⟨⟨_, lastOut⟩, -, heq⟩ := Option.map_eq_some_iff.1 hcodes
    obtain ⟨-, hout⟩ := Prod.mk.inj heq
    obtain ⟨byte, -, rfl⟩ := Option.map_eq_some_iff.1 hout
    have hlt := byte.isLt
    omega

/-! ## Single flags -/

namespace Session

variable {settings : Settings} {s t : Session}

/-- The machine has exactly one flag set, and so had it after every completed instruction. -/
structure Single (s : Session) : Prop where
  /-- Now, -/
  cond : s.machine.processor.cond.Single
  /-- and then. -/
  rows : ∀ row ∈ s.trace.toList, row.cond.Single

theorem single_start (options : Options) (image : Image) (terminal : Terminal)
    (journal : Journal) : (start options image terminal journal).Single where
  cond := .inr (.inl rfl)
  rows row hrow := by cases hrow

/-- Turns keep it so. -/
theorem single_step (h : s.turn settings = .next t) (hs : s.Single) : t.Single := by
  have hcond := closed_of_next Machine.closed_single h hs.cond
  refine ⟨hcond, ?_⟩
  obtain ⟨-, -, w, m, -, rfl⟩ := turn_eq_next_iff.1 h
  intro row hrow
  unfold advance at hrow
  dsimp only at hrow
  split at hrow
  · rw [Array.toList_push, List.mem_append, List.mem_singleton] at hrow
    obtain hold | rfl := hrow
    · exact hs.rows row hold
    · -- the new row shows the flags of the machine
      exact hcond
  · exact hs.rows row hrow

/-- So it is all along a run, -/
theorem single_after {n : Nat} (h : after settings n s = some t) (hs : s.Single) : t.Single :=
  after_induction h hs fun _ _ hu hturn => single_step hturn hu

/-- and in the session that the run ends with. -/
theorem single_of_ends {ending : Ending} (h : Ends settings s ending t) (hs : s.Single) :
    t.Single := by
  refine ⟨closed_of_ends Machine.closed_single h hs.cond, ?_⟩
  rw [h.trace_eq]
  exact hs.rows

end Session

/-! ## Kinds of fault -/

/-- The kinds of fault that are reported where every opcode is implemented. -/
def FaultKind.reported : List FaultKind :=
  [.load, .unusedOpcode, .unknownTrapVector, .stepLimitExceeded, .inputUnderflow]

/-- **The faults of instructions.**  An opcode is bad only if the instruction set lacks it. -/
theorem Exec.kind_of_cycle {instructions : InstructionSet} {m m' : Machine} {cause : Fault}
    (hset : ∀ op, instructions op = true)
    (h : cycle instructions m = .error (.fault cause) m') : cause.kind ∈ FaultKind.reported := by
  cases reason_of_cycle h with
  | underflow _ => decide
  | @badOpcode op code hlacks =>
      rw [hset op] at hlacks
      cases hlacks
  | unusedOpcode mnemonic => exact .tail _ (.head _)
  | unknownTrapVector vector => exact .tail _ (.tail _ (.head _))

/-- A session that fails says one of these things. -/
theorem Session.kind_of_ends {settings : Settings} {s t : Session} {report : Report}
    (hset : ∀ op, settings.instructions op = true) (h : Ends settings s (.faulted report) t) :
    report.kind ∈ FaultKind.reported := by
  cases h with
  | exhausted _ _ => exact .tail _ (.tail _ (.tail _ (.head _)))
  | faulted _ _ hcycle => exact Exec.kind_of_cycle hset hcycle

/-! ## Whole runs -/

/-- **A session that holds words is well-formed**, if exactly one flag is set. -/
theorem Session.Rendered.wellFormed {σ : Type} [Provider σ] [Visible σ] {s : Session}
    {p : Plain.Session σ} (h : s.Rendered Port.Shows p) (hsingle : s.Single) : p.WellFormed := by
  obtain ⟨hmachine, -, htrace, -⟩ := h
  obtain ⟨p, _, trace', _⟩ := p
  dsimp only at hmachine htrace
  subst htrace
  obtain ⟨hmemory, hport⟩ := hmachine
  constructor
  case processor => exact Processor.wellFormed_plain hsingle.cond
  case size => exact hmemory.size
  case cells =>
    intro value hvalue
    obtain ⟨i, hi, rfl⟩ := Array.mem_iff_getElem.1 hvalue
    have hlt : i < 2 ^ 16 := Nat.lt_of_lt_of_eq hi hmemory.size
    have hcell := hmemory.cell (BitVec.ofNat 16 i)
    rw [BitVec.toNat_ofNat, Nat.mod_eq_of_lt hlt, Array.getElem?_eq_getElem hi,
      Option.some.injEq] at hcell
    rw [hcell]
    exact Plain.inRange_plain _
  case written =>
    intro code hcode
    rw [← hport.written] at hcode
    obtain ⟨byte, -, rfl⟩ := List.mem_map.1 hcode
    exact Nat.le_of_lt_succ byte.isLt
  case rows =>
    intro row hrow
    obtain ⟨row, hmem, rfl⟩ := Array.mem_map.1 hrow
    exact TraceRow.wellFormed_plain (hsingle.rows row (Array.mem_toList_iff.2 hmem))

/-- How a run of the program goes on a port, in each of its sessions and in what it leaves. -/
structure Plain.RunsWell {σ : Type} [Provider σ] [Visible σ] (settings : Settings)
    (program : Program) (port : Port σ) (journal : Journal) (interrupts : Bool) : Prop where
  /-- After any number of completed instructions the session is well-formed. -/
  sessions : ∀ p n q, prepare settings program port journal = .ok p →
    p.after settings.sorted n = some q → q.WellFormed
  /-- Nothing but an interrupt escapes from the run: no index is out of range, and no number. -/
  escapes : ∀ fuel c e, run fuel settings program port journal = some c → c.outcome = .error e →
    interrupts = true ∧ e = .stop .interrupted
  /-- The result is well-formed. -/
  results : ∀ fuel c r, run fuel settings program port journal = some c → c.outcome = .ok r →
    r.WellFormed
  /-- Where every opcode is implemented, an error is of one of five kinds, none of which is a bad
  opcode. -/
  kinds : (∀ op, settings.instructions op = true) → ∀ fuel c r report,
    run fuel settings program port journal = some c → c.outcome = .ok r → r.error = some report →
      report.kind ∈ FaultKind.reported ∧ report.kind ≠ .badOpcode

namespace Result

/-- What has been read off a session with single flags is well-formed. -/
theorem wellFormed_plain {r : Result} (hcond : r.final.cond.Single)
    (hrows : ∀ row ∈ r.trace, row.cond.Single) : r.plain.WellFormed where
  final := Processor.wellFormed_plain hcond
  rows row hrow := by
    obtain ⟨row, hmem, rfl⟩ := List.mem_map.1 hrow
    exact TraceRow.wellFormed_plain (hrows row hmem)
  output code hcode := by
    obtain ⟨byte, -, rfl⟩ := List.mem_map.1 hcode
    exact Nat.le_of_lt_succ byte.isLt

end Result

/-- The result of a run has single flags, and an error of one of the kinds that there are. -/
theorem single_of_run {settings : Settings} {program : Program} {terminal : Terminal}
    {journal : Journal} {fuel : Nat} {c : Conclusion} {r : Result}
    (h : run fuel settings program terminal journal = some c) (hr : c.result = some r) :
    r.final.cond.Single ∧ (∀ row ∈ r.trace, row.cond.Single) ∧
      ((∀ op, settings.instructions op = true) → ∀ report, r.error = some report →
        report.kind ∈ FaultKind.reported) := by
  obtain ⟨e, journal', rfl⟩ | ⟨image, journal', n, t, ending, u, hafter, hends, rfl⟩ := run_cases h
  · cases hr
    refine ⟨.inr (.inl rfl), fun row hrow => ?_, fun _ report hreport => ?_⟩
    · cases hrow
    · cases hreport
      exact .head _
  · have hstart := Session.single_start settings.sorted.options image terminal journal'
    have hu := Session.single_of_ends hends (Session.single_after hafter hstart)
    obtain ⟨-, rfl⟩ | ⟨report, rfl, rfl⟩ := Session.result?_cases hr
    · refine ⟨hu.cond, hu.rows, fun _ report hreport => ?_⟩
      cases hreport
    · refine ⟨hu.cond, hu.rows, fun hset report' hreport => ?_⟩
      cases hreport
      have hset' : ∀ op, settings.sorted.instructions op = true := hset
      exact Session.kind_of_ends hset' hends

/-- Runs go well on every port that shows a terminal. -/
theorem Plain.runsWell_of_shows {σ : Type} [Provider σ] [Visible σ] {port : Port σ}
    {terminal : Terminal} (hport : port.Shows terminal) (settings : Settings) (program : Program)
    (journal : Journal) :
    RunsWell settings program port journal (Visible.seen port.own).interrupts := by
  constructor
  case sessions =>
    intro p n q hp hq
    obtain ⟨s, p', hs, hp', hsame⟩ | ⟨e, journal', -, hnone, -⟩ :=
      Program.rendered_session? hport settings program journal
    · cases hp.symm.trans hp'
      obtain ⟨-, hnone⟩ | ⟨t, q', ht, hq', hheld⟩ :=
        Session.rendered_after Port.simulation settings.sorted hsame n
      · rw [hq] at hnone
        cases hnone
      · cases hq.symm.trans hq'
        obtain ⟨image, journal', rfl⟩ := Program.session?_cases hs
        exact hheld.wellFormed (Session.single_after ht (Session.single_start _ _ _ _))
    · rw [hp] at hnone
      cases hnone
  case escapes =>
    intro fuel c e hc he
    obtain ⟨c', hc', hsame⟩ := rendered_of_plain Port.simulation hport hc
    obtain ⟨hnone, rfl⟩ := hsame.of_error he
    refine ⟨?_, rfl⟩
    -- only a terminal that waits lets a run go without a result
    by_contra hnever
    have hpolicy : terminal.atEnd ≠ .interrupt := by
      rw [hport.atEnd, if_neg hnever]
      exact EndOfInput.ofStrict_ne_interrupt _
    obtain ⟨r, hsome⟩ := result_of_run hc' hpolicy
    rw [hnone] at hsome
    cases hsome
  case results =>
    intro fuel c r hc hr
    obtain ⟨c', hc', hsame⟩ := rendered_of_plain Port.simulation hport hc
    obtain ⟨r', hr', rfl⟩ := hsame.of_ok hr
    obtain ⟨hcond, hrows, -⟩ := single_of_run hc' hr'
    exact Result.wellFormed_plain hcond hrows
  case kinds =>
    intro hset fuel c r report hc hr hreport
    obtain ⟨c', hc', hsame⟩ := rendered_of_plain Port.simulation hport hc
    obtain ⟨r', hr', rfl⟩ := hsame.of_ok hr
    obtain ⟨-, -, hkinds⟩ := single_of_run hc' hr'
    have hkind := hkinds hset report hreport
    have hnever : ∀ kind ∈ FaultKind.reported, kind ≠ .badOpcode := by decide
    exact ⟨hkind, hnever _ hkind⟩

/-- **Well-formedness.**  Whatever the program, its input and its options are, on a buffer and on a
console, every session of its run is in range with exactly one flag set, and so is what the run
leaves; no access misses and no number is out of range; and where every opcode is implemented, an
error is of one of five kinds, none of which is a bad opcode. -/
theorem run_wellFormed (settings : Settings) (program : Program) (journal : Journal)
    (strict : Bool) :
    (∀ codes, Plain.RunsWell settings program (.buffer codes strict) journal false) ∧
      ∀ bytes interrupts,
        Plain.RunsWell settings program (.console bytes strict interrupts) journal interrupts :=
  ⟨fun codes => Plain.runsWell_of_shows (Port.shows_buffer codes strict) settings program journal,
    fun bytes interrupts => Plain.runsWell_of_shows (Port.shows_console bytes strict interrupts)
      settings program journal⟩

/-- An image with numbers out of range; modulo `2 ^ 16` it adds one to a register and then asks for
what the machine does not have. -/
def Program.sprawling : Program := .image ⟨0x13000, [0x11021, -0x8000]⟩

theorem run_wellFormed_sprawling :
    ∃ c r report, Plain.run 5 { options := { trace := true } } Program.sprawling
        (.buffer [] false) ⟨.error, #[]⟩ = some c ∧ c.outcome = .ok r ∧ r.error = some report ∧
      r.trace.length = 1 ∧ r.WellFormed ∧ report.kind ∈ FaultKind.reported ∧
      report.kind ≠ .badOpcode := by
  obtain ⟨c, hc, hsame⟩ := rendered_of_run Port.simulation (Port.shows_buffer [] false)
    (rfl : run 5 { options := { trace := true } } Program.sprawling (.buffer [] .sentinel)
      ⟨.error, #[]⟩ = some _)
  have hwell := (run_wellFormed { options := { trace := true } } Program.sprawling ⟨.error, #[]⟩
    false).1 []
  have hr := hsame.outcome
  obtain ⟨hkind, hnever⟩ := hwell.kinds (fun _ => rfl) 5 c _ _ hc hr rfl
  exact ⟨c, _, _, hc, hr, rfl, rfl, hwell.results 5 c _ hc hr, hkind, hnever⟩

end LittleComputer
