import LittleComputer.Proofs.Architecture
import LittleComputer.Proofs.Runs
import LittleComputer.Proofs.Stops

/-!
# Reports of failed runs

A run that fails tells where and why.  What it tells fits together: the step it failed at, the
address and the word of the instruction, the kind of the fault and the state that it leaves.

* `Session.status_after` — a machine under way is never faulted.
* `Word.Refused`, `Word.Unassigned`, `Word.MayAsk`, `Word.Explains` — which words can be behind
  which kind of fault.
* `Report.Consistent`, `Session.consistent_of_ends` — what a report says of the machine that it is
  about.
* `run_report` — **consistency of reports**, for whole runs.
-/

namespace LittleComputer

/-! ## The status of a run -/

namespace Architecture.State

variable {s t : State}

theorem status_receive (s : State) : s.receive.2.status = s.status := by
  unfold receive
  split <;> rfl

theorem status_read (s : State) (address : Word) : (s.read address).2.status = s.status := by
  unfold read
  split
  · exact status_receive s
  · rfl

theorem status_trap {vector : BitVec 8} (h : s.trap vector = some t) :
    t.status = s.status ∨ t.status = .halted := by
  unfold trap at h
  split at h
  · cases h
    exact .inl (status_receive s)
  · cases h
    exact .inl (status_receive s)
  · cases h
    exact .inl rfl
  · cases h
    exact .inl rfl
  · cases h
    exact .inl rfl
  · cases h
    exact .inr rfl
  · cases h

/-- Only traps change the status, and only to halt. -/
theorem status_execute {op : Operation} (h : s.execute op = some t) :
    t.status = s.status ∨ t.status = .halted := by
  cases op with
  | trap vector => exact status_trap h
  | undefined => cases h
  | br mask offset =>
      cases h
      left
      split <;> rfl
  | ld dr offset =>
      cases h
      exact .inl (status_read s _)
  | ldr dr base offset =>
      cases h
      exact .inl (status_read s _)
  | sti sr offset =>
      cases h
      exact .inl (status_read s _)
  | ldi dr offset =>
      cases h
      exact .inl ((status_read _ _).trans (status_read s _))
  | add | and | not | lea | st | str | jmp | jsr | jsrr =>
      cases h
      exact .inl rfl

end Architecture.State

/-- A completed cycle halts the machine or leaves its status alone. -/
theorem Exec.status_of_cycle {instructions : InstructionSet} {m m' : Machine} {w : Word}
    (h : cycle instructions m = .ok w m') :
    m'.processor.status = m.processor.status ∨ m'.processor.status = .halted := by
  obtain ⟨-, -, -, target, m₁, hperform, rfl⟩ := cycle_ok_cases h
  exact Architecture.State.status_execute (Architecture.State.execute_of_perform hperform)

namespace Session

variable {settings : Settings} {s t : Session}

/-- **A machine under way is never faulted.** -/
theorem status_after {n : Nat} (h : after settings n s = some t)
    (hs : s.machine.processor.status ≠ .faulted) : t.machine.processor.status ≠ .faulted := by
  refine after_induction (I := fun u => u.machine.processor.status ≠ .faulted) h hs ?_
  intro u v hu hturn
  obtain ⟨-, -, w, m, hcycle, rfl⟩ := turn_eq_next_iff.1 hturn
  show m.processor.status ≠ .faulted
  obtain hsame | hhalted := Exec.status_of_cycle hcycle
  · rw [hsame]
    exact hu
  · rw [hhalted]
    decide

end Session

/-! ## Words and kinds of fault -/

namespace Word

variable (w : Word)

/-- The machine refuses the word: its top four bits are 8 or 13. -/
def Refused : Prop := w.extractLsb' 12 4 = 8#4 ∨ w.extractLsb' 12 4 = 13#4

/-- The word is a trap without a routine. -/
def Unassigned : Prop :=
  w.extractLsb' 12 4 = 15#4 ∧
    ¬ (0x20 ≤ (w.extractLsb' 0 8).toNat ∧ (w.extractLsb' 0 8).toNat ≤ 0x25)

/-- The word may ask for a character: as a read of memory, or as one of two traps. -/
def MayAsk : Prop := w.opcode ∈ Opcode.readers ∨ w.TakesCharacter

theorem refused_iff : w.Refused ↔ w.opcode = .rti ∨ w.opcode = .res := by
  have h : ∀ code : BitVec 4, (code = 8#4 ∨ code = 13#4) ↔
      Opcode.all.get ⟨_, code.isLt⟩ = .rti ∨ Opcode.all.get ⟨_, code.isLt⟩ = .res := by decide
  exact h _

end Word

/-- A vector has no routine exactly outside `0x20` to `0x25`. -/
theorem Trap.ofVector?_eq_none_iff (n : Nat) :
    ofVector? n = none ↔ ¬ (0x20 ≤ n ∧ n ≤ 0x25) := by
  constructor
  · rintro h ⟨hlow, hhigh⟩
    interval_cases n <;> cases h
  · intro h
    cases hv : ofVector? n with
    | none => rfl
    | some routine =>
        rw [ofVector?_eq_some_iff] at hv
        cases routine <;> simp only [vector] at hv <;> omega

theorem Word.unassigned_iff (w : Word) :
    w.Unassigned ↔ w.opcode = .trap ∧ Trap.ofVector? (decode w.toNat).trapVector = none := by
  rw [Unassigned, Word.opcode_eq_trap_iff, Trap.ofVector?_eq_none_iff,
    Instruction.trapVector_decode]

/-- The kind of a fault in the word `w`, as far as the word tells. -/
structure Word.Explains (w : Word) (kind : FaultKind) : Prop where
  /-- Instructions fail in three ways. -/
  kinds : kind = .unusedOpcode ∨ kind = .unknownTrapVector ∨ kind = .inputUnderflow
  /-- The first of them are those that the machine refuses. -/
  unused : kind = .unusedOpcode ↔ w.Refused
  /-- The second are traps without a routine. -/
  unknown : kind = .unknownTrapVector ↔ w.Unassigned
  /-- The third may ask for a character. -/
  underflow : kind = .inputUnderflow → w.MayAsk

namespace Word.Explains

variable {w : Word}

theorem of_refused (h : w.opcode = .rti ∨ w.opcode = .res) : w.Explains .unusedOpcode where
  kinds := .inl rfl
  unused := iff_of_true rfl (w.refused_iff.2 h)
  unknown := by
    refine iff_of_false (by decide) fun hunassigned => ?_
    have htrap := (w.unassigned_iff.1 hunassigned).1
    obtain h | h := h <;> cases htrap.symm.trans h
  underflow hkind := by cases hkind

theorem of_unassigned (h : w.Unassigned) : w.Explains .unknownTrapVector where
  kinds := .inr (.inl rfl)
  unused := by
    refine iff_of_false (by decide) fun hrefused => ?_
    have htrap := (w.unassigned_iff.1 h).1
    obtain h | h := w.refused_iff.1 hrefused <;> cases htrap.symm.trans h
  unknown := iff_of_true rfl h
  underflow hkind := by cases hkind

theorem of_mayAsk (h : w.MayAsk) (hrefused : ¬ w.Refused) (hassigned : ¬ w.Unassigned) :
    w.Explains .inputUnderflow where
  kinds := .inr (.inr rfl)
  unused := iff_of_false (by decide) hrefused
  unknown := iff_of_false (by decide) hassigned
  underflow _ := h

end Word.Explains

/-- **The kind of a fault goes by the word.** -/
theorem Word.explains_of_stops {w : Word} {m m' : Machine} {e : Stop} {cause : Fault}
    (h : (decode w.toNat).Stops w.opcode m e m') (he : e = .fault cause) :
    w.Explains cause.kind := by
  have hunderflow : ∀ {t t' : Terminal}, t.read = (.error e, t') → cause = .inputUnderflow := by
    intro t t' hread
    obtain ⟨-, ⟨-, hstop⟩ | ⟨-, hstop⟩⟩ := Terminal.read_error_cases hread
    · cases he.symm.trans hstop
      rfl
    · cases he.symm.trans hstop
  cases h with
  | input htrap hroutine hread =>
      cases hunderflow hread
      refine .of_mayAsk (.inr (w.takesCharacter_iff.2 ⟨htrap, hroutine⟩)) ?_ ?_
      · intro hrefused
        obtain h | h := w.refused_iff.1 hrefused <;> cases htrap.symm.trans h
      · intro hunassigned
        have hnone := (w.unassigned_iff.1 hunassigned).2
        obtain hv | hv := hroutine <;> cases hnone.symm.trans hv
  | keyboard hreads hread =>
      cases hunderflow hread
      refine .of_mayAsk (.inl (by simpa [Opcode.readers] using hreads)) ?_ ?_
      · intro hrefused
        obtain h | h := w.refused_iff.1 hrefused <;> rw [h] at hreads <;> simp at hreads
      · intro hunassigned
        rw [(w.unassigned_iff.1 hunassigned).1] at hreads
        simp at hreads
  | unused hrefused =>
      cases he
      exact .of_refused hrefused
  | unknownVector htrap hunknown =>
      cases he
      exact .of_unassigned (w.unassigned_iff.2 ⟨htrap, hunknown⟩)
  | endless _ _ _ => cases he

/-! ## Reports -/

/-- What a report says of the machine `m` that was stopped, given the final state of its
processor. -/
structure Report.Consistent (report : Report) (instructions : InstructionSet) (m : Machine)
    (final : Processor) : Prop where
  /-- There is no word in it exactly where the limit was reached, or where the fetch itself ran out
  of input. -/
  instr_eq_none_iff : report.instr = none ↔ report.kind = .stepLimitExceeded ∨
    report.kind = .inputUnderflow ∧ m.processor.pc = 0xFE00 ∧
      ∃ m', Exec.fetch m = .error (.fault .inputUnderflow) m'
  /-- Then the address is where the machine stands. -/
  addr_of_none : report.instr = none → report.addr = final.pc.toNat
  /-- Otherwise it is the word that was fetched from the address, and the machine has moved on by
  one.  The word tells the kind. -/
  of_some : ∀ value, report.instr = some value → ∃ w : Word, value = w.toNat ∧
    report.addr = m.processor.pc.toNat ∧ (∃ m', Exec.fetch m = .ok w m') ∧
    final.pc = Word.ofInt (report.addr + 1) ∧
    ((∀ op, instructions op = true) → w.Explains report.kind)

/-- Instructions do not know of the limit. -/
theorem Exec.kind_ne_of_cycle {instructions : InstructionSet} {m m' : Machine} {cause : Fault}
    (h : cycle instructions m = .error (.fault cause) m') : cause.kind ≠ .stepLimitExceeded := by
  cases reason_of_cycle h with
  | underflow _ => decide
  | badOpcode _ _ => exact fun hkind => by cases hkind
  | unusedOpcode _ => exact fun hkind => by cases hkind
  | unknownTrapVector _ => exact fun hkind => by cases hkind

/-- Only one cause has the kind. -/
theorem Fault.eq_of_kind {cause : Fault} (h : cause.kind = .inputUnderflow) :
    cause = .inputUnderflow := by
  cases cause with
  | inputUnderflow => rfl
  | _ => cases h

/-- **What a fault of an instruction is reported as.** -/
theorem Exec.consistent_of_cycle {instructions : InstructionSet} {m m' : Machine} {cause : Fault}
    (h : cycle instructions m = .error (.fault cause) m') (step : Int) (status : Status) :
    Report.Consistent
      { kind := cause.kind, message := cause.message, step, addr := m.processor.pc.toNat,
        instr := m'.processor.ir }
      instructions m { m'.processor with status } := by
  have hlimit := kind_ne_of_cycle h
  obtain ⟨hfetch, hm'⟩ | ⟨w, m₁, hfetch, hm', hstops⟩ := processor_of_cycle_error h
  · -- nothing was fetched
    obtain ⟨hpc, t, hread, -⟩ := fetch_error_cases hfetch
    have hcause : cause = .inputUnderflow := by
      obtain ⟨-, ⟨-, hstop⟩ | ⟨-, hstop⟩⟩ := Terminal.read_error_cases hread <;> cases hstop
      rfl
    subst hcause
    constructor
    case instr_eq_none_iff =>
      refine iff_of_true ?_ (.inr ⟨rfl, hpc, m', hfetch⟩)
      rw [hm']
    case addr_of_none =>
      intro _
      rw [hm']
    case of_some =>
      intro value hvalue
      rw [hm'] at hvalue
      cases hvalue
  · constructor
    case instr_eq_none_iff =>
      refine iff_of_false ?_ ?_
      · rw [hm']
        exact Option.some_ne_none _
      · rintro (hkind | ⟨-, -, m₂, hfails⟩)
        · exact hlimit hkind
        · cases hfetch.symm.trans hfails
    case addr_of_none =>
      intro hnone
      rw [hm'] at hnone
      cases hnone
    case of_some =>
      intro value hvalue
      rw [hm'] at hvalue ⊢
      cases hvalue
      refine ⟨w, rfl, rfl, ⟨m₁, hfetch⟩, ?_, ?_⟩
      · show m.processor.pc + 1 = Word.ofInt (m.processor.pc.toNat + 1)
        rw [Word.ofInt_add_one, Word.ofInt_toNat]
      · intro hset
        exact Word.explains_of_stops (hstops (hset _)) rfl

namespace Session

variable {settings : Settings} {s t : Session}

/-- **What a run that fails is reported as.** -/
theorem consistent_of_ends {report : Report} (h : Ends settings s (.faulted report) t) :
    report.Consistent settings.instructions s.machine t.machine.processor := by
  cases h with
  | exhausted _ _ =>
      constructor
      case instr_eq_none_iff => exact iff_of_true rfl (.inl rfl)
      case addr_of_none =>
        intro _
        rfl
      case of_some =>
        intro value hvalue
        cases hvalue
  | faulted _ _ hcycle => exact Exec.consistent_of_cycle hcycle _ _

/-- **Input runs out** only where that is a fault, and when nothing is left of it. -/
theorem exhausted_of_ends {report : Report} (h : Ends settings s (.faulted report) t)
    (hkind : report.kind = .inputUnderflow) :
    s.machine.terminal.atEnd = .underflow ∧ t.machine.terminal.pending = [] := by
  have hpolicy := closed_of_ends (Machine.closed_atEnd s.machine.terminal.atEnd) h rfl
  cases h with
  | exhausted _ _ => cases hkind
  | @faulted cause m _ _ hcycle =>
      have hcause : cause.kind = .inputUnderflow := hkind
      cases Fault.eq_of_kind hcause
      obtain ⟨hpending, hunderflow⟩ := Exec.exhausted_of_cycle_error hcycle
      exact ⟨hpolicy.symm.trans hunderflow, hpending⟩

/-- The step of a report is that of the session, and the session is faulted. -/
theorem status_of_ends {report : Report} (h : Ends settings s (.faulted report) t) :
    t.machine.processor.status = .faulted ∧ report.step = t.steps := by
  cases h <;> exact ⟨rfl, rfl⟩

/-- Where no fault ends a run that has not been faulted, the machine has halted. -/
theorem halted_of_ends (h : Ends settings s .halted t)
    (hs : s.machine.processor.status ≠ .faulted) : t.machine.processor.status = .halted := by
  cases h with
  | halted hstopped =>
      cases hstatus : s.machine.processor.status with
      | running =>
          rw [Processor.running, hstatus] at hstopped
          cases hstopped
      | halted => rfl
      | faulted => exact absurd hstatus hs

end Session

/-- The verdict of a result goes with the state that it leaves. -/
structure Result.Settled (r : Result) : Prop where
  /-- The machine does not run any more. -/
  stopped : r.final.status ≠ .running
  /-- The word for the end says whether it has halted. -/
  status_eq_ok_iff : r.status = "ok" ↔ r.final.status = .halted
  /-- So does the error. -/
  halted_iff : r.final.status = .halted ↔ r.error = none

namespace Result

theorem settled_of_halted {r : Result} (hstatus : r.final.status = .halted)
    (herror : r.error = none) : r.Settled where
  stopped := by
    rw [hstatus]
    decide
  status_eq_ok_iff := iff_of_true (by rw [status, herror]; rfl) hstatus
  halted_iff := iff_of_true hstatus herror

theorem settled_of_faulted {r : Result} {report : Report} (hstatus : r.final.status = .faulted)
    (herror : r.error = some report) : r.Settled where
  stopped := by
    rw [hstatus]
    decide
  status_eq_ok_iff := by
    rw [status, herror, hstatus]
    exact iff_of_false (by simp) Status.noConfusion
  halted_iff := by
    rw [herror, hstatus]
    exact iff_of_false (by decide) (Option.some_ne_none _)

end Result

/-- **Consistency of reports.**  A result never leaves a running machine.  It is ok exactly if the
machine has halted, and that is exactly if there is no error; otherwise the machine is faulted, and
the error tells the number of completed steps.  Where the program is an image, the error fits the
machine that those steps lead to; and input runs out only on a strict terminal that has none left. -/
theorem run_report {settings : Settings} {program : Program} {terminal : Terminal}
    {journal : Journal} {fuel : Nat} {c : Conclusion} {r : Result}
    (h : run fuel settings program terminal journal = some c) (hr : c.result = some r) :
    r.Settled ∧
    ∀ report, r.error = some report → r.final.status = .faulted ∧ report.step = r.steps ∧
      ∀ s, program.session? settings.sorted.options terminal journal = some s →
        (report.kind = .inputUnderflow →
          terminal.atEnd = .underflow ∧ c.terminal.pending = []) ∧
        ∃ t, s.after settings.sorted r.steps = some t ∧
          report.Consistent settings.instructions t.machine r.final := by
  cases hs : program.session? settings.sorted.options terminal journal with
  | none =>
      obtain ⟨e, journal', hrun⟩ := run_of_session?_eq_none hs
      rw [hrun] at h
      cases h
      cases hr
      refine ⟨Result.settled_of_faulted rfl rfl, fun report hreport => ?_⟩
      cases hreport
      refine ⟨rfl, rfl, fun s hs' => ?_⟩
      cases hs'
  | some s =>
      obtain ⟨n, t, ending, u, -, hafter, hends, rfl⟩ := (run_eq_some_iff hs).1 h
      obtain ⟨image, journal', rfl⟩ := Program.session?_cases hs
      obtain ⟨rfl, rfl⟩ | ⟨report, rfl, rfl⟩ := Session.result?_cases hr
      · have hstatus := Session.halted_of_ends hends
          (Session.status_after hafter Status.noConfusion)
        refine ⟨Result.settled_of_halted hstatus rfl, ?_⟩
        intro report hreport
        cases hreport
      · obtain ⟨hstatus, hstep⟩ := Session.status_of_ends hends
        refine ⟨Result.settled_of_faulted hstatus rfl, fun report' hreport => ?_⟩
        cases hreport
        refine ⟨hstatus, hstep, fun s' hs' => ?_⟩
        cases hs'
        constructor
        · intro hkind
          obtain ⟨hpolicy, hpending⟩ := Session.exhausted_of_ends hends hkind
          have hkept := Session.closed_after (Machine.closed_atEnd terminal.atEnd) hafter rfl
          exact ⟨hkept.symm.trans hpolicy, hpending⟩
        · have hsteps : u.steps = n := by
            rw [hends.steps_eq, Session.steps_after hafter]
            exact Nat.zero_add n
          have hconsistent := Session.consistent_of_ends hends
          refine ⟨t, ?_, hconsistent⟩
          rw [← hsteps] at hafter
          exact hafter

/-- A program that clears a register and then asks, through a pointer, for a character. -/
def Program.asking : Program := .image ⟨0x3000, [0x5020, 0xA001, 0, 0xFE00]⟩

theorem run_report_asking :
    ∃ c r report, run 5 {} Program.asking (.buffer [] .underflow) ⟨.error, #[]⟩ = some c ∧
      c.result = some r ∧ r.error = some report ∧ r.Settled ∧ report.step = 1 ∧
      report.instr = some 0xA001 ∧ r.final.pc = Word.ofInt (report.addr + 1) ∧
      (0xA001 : Word).Explains report.kind := by
  have hrun : run 5 {} Program.asking (.buffer [] .underflow) ⟨.error, #[]⟩ = some _ := rfl
  obtain ⟨hsettled, hreport⟩ := run_report hrun rfl
  obtain ⟨-, hstep, hsession⟩ := hreport _ rfl
  obtain ⟨-, t, -, hconsistent⟩ := hsession _ rfl
  obtain ⟨w, hw, -, -, hpc, hkind⟩ := hconsistent.of_some 0xA001 rfl
  have hword : w = 0xA001 := BitVec.eq_of_toNat_eq (Int.ofNat.inj hw.symm)
  subst hword
  exact ⟨_, _, _, hrun, rfl, rfl, hsettled, hstep, rfl, hpc, hkind fun _ => rfl⟩

end LittleComputer
