import LittleComputer.Proofs.Devices
import LittleComputer.Proofs.Rows
import LittleComputer.Proofs.Stops

/-!
# Strict runs

A strict terminal stops the program that asks for more characters than there are, and that is all
that it does.

* `Exec.stops_of_overrun` — what overruns a terminal that stops the machine there is stopped at
  once.
* `Exec.overrun_of_alike` — what overruns a terminal overruns those of another make.
* `Session.Overruns` — with the next instruction the input has been overrun.
* `run_strict` — **strict and lenient runs** are the same up to the first such instruction, and the
  strict one ends there.
-/

namespace LittleComputer

/-! ## Overrunning a terminal -/

/-- How a read at the end of the input stops the machine, if it does. -/
def EndOfInput.stop? : EndOfInput → Option Stop
  | sentinel => none
  | underflow => some (.fault .inputUnderflow)
  | interrupt => some .interrupted

/-- A read that overruns a terminal which stops the machine there does so. -/
theorem Terminal.read_of_overrun {t : Terminal} {e : Stop} (hpolicy : t.atEnd.stop? = some e)
    (hbefore : ¬ t.Overrun) (hafter : t.read.2.Overrun) : t.read = (.error e, t.read.2) := by
  have hpending : t.pending = [] := ((t.overrun_read).1 hafter).resolve_left hbefore
  unfold read
  rw [hpending]
  dsimp only [record]
  cases hatEnd : t.atEnd with
  | sentinel =>
      rw [hatEnd] at hpolicy
      cases hpolicy
  | underflow | interrupt =>
      rw [hatEnd] at hpolicy
      cases hpolicy
      rfl

namespace Exec

variable {α β : Type} {x : Exec α} {m m' : Machine} {e : Stop}

/-- On a terminal that stops the machine at the end of the input, what asks for a character where
none is left stops at once. -/
def StopsAtEnd (e : Stop) (x : Exec α) : Prop :=
  ∀ m, m.terminal.atEnd.stop? = some e → ¬ m.terminal.Overrun →
    (left x m).terminal.Overrun → x m = .error e (left x m)

theorem StopsAtEnd.bind {f : α → Exec β} (hx : StopsAtEnd e x) (hf : ∀ a, StopsAtEnd e (f a))
    (hkeeps : Keeps (fun m => m.terminal.atEnd.stop? = some e) x) : StopsAtEnd e (x >>= f) := by
  intro m hpolicy hbefore hafter
  have hstop := hx m hpolicy hbefore
  have hpolicy' := hkeeps m hpolicy
  cases hm : x m with
  | ok a m₁ =>
      rw [left_bind_of_ok hm] at hafter ⊢
      rw [left_of_ok hm] at hstop hpolicy'
      rw [bind_apply, hm]
      refine hf a m₁ hpolicy' (fun hover => ?_) hafter
      -- the first half has not failed
      cases hm.symm.trans (hstop hover)
  | error e₁ m₁ =>
      rw [left_bind_of_error hm] at hafter ⊢
      rw [left_of_error hm] at hstop
      rw [bind_apply, hstop hafter]

theorem stopsAtEnd_readChar : StopsAtEnd e readChar := by
  intro m hpolicy hbefore hafter
  rw [left_readChar] at hafter ⊢
  have hread := Terminal.read_of_overrun hpolicy hbefore hafter
  rw [readChar_apply, hread]

theorem stopsAtEnd_load (address : Int) : StopsAtEnd e (load address) := by
  intro m hpolicy hbefore hafter
  by_cases hk : Word.ofInt address = Memory.keyboardStatus
  · rw [terminal_left_load m hk] at hafter
    have hstop := load_keyboard_error m hk (Terminal.read_of_overrun hpolicy hbefore hafter)
    rw [left_of_error hstop, hstop]
  · rw [left_of_ok (load_of_ne m hk)] at hafter
    exact absurd hafter hbefore

/-- **What overruns a terminal that stops the machine there is stopped at once.** -/
theorem stops_of_overrun (hx : Built x) : StopsAtEnd e x := by
  induction hx with
  | bind hx _ ihx ihf =>
      refine ihx.bind ihf fun m hpolicy => ?_
      have hkept := Keeps.of_built (Machine.closed_atEnd m.terminal.atEnd) hx m rfl
      exact (congrArg EndOfInput.stop? hkept).trans hpolicy
  | load address => exact stopsAtEnd_load address
  | readChar => exact stopsAtEnd_readChar
  | write codes =>
      intro m _ hbefore hafter
      exact absurd ((Terminal.overrun_writeAll _ codes).1 hafter) hbefore
  | flush =>
      intro m _ hbefore hafter
      exact absurd ((Terminal.overrun_flush _).1 hafter) hbefore
  | string address =>
      intro m _ hbefore hafter
      rw [left_string] at hafter
      exact absurd hafter hbefore
  | pure _ | fail _ | look _ | setRegister _ _ | setResult _ _ | move _ | halt | store _ _
  | resetCodes => exact fun m _ hbefore hafter => absurd hafter hbefore

/-- What overruns a terminal overruns those of another make. -/
theorem overrun_of_alike {device : Device} {policy : EndOfInput} (hx : Built x)
    (h : m.Alike (fun t t' => t' = t.on device policy) m')
    (hover : (left x m).terminal.Overrun) : (left x m').terminal.Overrun := by
  refine Classical.not_not.1 fun hnot => ?_
  -- the first machine is the second with a terminal of the make that it had
  have hback : m'.Alike (fun t t' => t' = t.on m.terminal.device m.terminal.atEnd) m := by
    refine ⟨h.processor.symm, h.memory.symm, ?_⟩
    rw [h.terminal]
    rfl
  have hagrees := (alike_of_built (Terminal.simulation_on _ _) hx m' m hback).resolve_left
    fun hlost => hnot hlost.2
  have hterminal := hagrees.left.terminal
  rw [hterminal] at hover
  exact hnot hover

end Exec

/-! ## Settings -/

/-- The same settings, but strict. -/
def Settings.strict (settings : Settings) : Settings :=
  { settings with options := { settings.options with strictInput := true } }

section Settings

variable {settings : Settings} {program : Program} {terminal : Terminal} {journal : Journal}

/-- A run does not look at whether it should be strict; that is up to its terminal. -/
theorem run_strict_settings {s : Session}
    (hs : program.session? settings.sorted.options terminal journal = some s) (fuel : Nat) :
    run fuel settings.strict program terminal journal =
      run fuel settings program terminal journal := by
  have hs' : program.session? settings.strict.sorted.options terminal journal = some s := by
    rw [← hs]
    cases program <;> rfl
  rw [run_of_session? hs', run_of_session? hs,
    Session.runFor_congr settings.strict.sorted settings.sorted fun _ => rfl]
  rfl

end Settings

/-! ## The first instruction that asks for too much -/

namespace Session

variable {settings : Settings} {s t t' : Session}

/-- With the next instruction, at the latest, a character is asked for where none is left. -/
def Overruns (settings : Settings) (s : Session) : Prop :=
  s.machine.processor.running = true ∧ settings.options.exhausted? s.steps = none ∧
    (Exec.left (Exec.cycle settings.instructions) s.machine).terminal.Overrun

/-- As long as no instruction has done so, the input has not been overrun. -/
theorem not_overrun_of_after {k : Nat} (hs : ¬ s.machine.terminal.Overrun)
    (ht : after settings k s = some t)
    (hbefore : ∀ j u, j < k → after settings j s = some u → ¬ u.Overruns settings) :
    ¬ t.machine.terminal.Overrun := by
  cases k with
  | zero =>
      cases ht
      exact hs
  | succ k =>
      obtain ⟨u, hu, hturn⟩ := after_succ_eq_some_iff'.1 ht
      intro hover
      have hloses : u.Loses settings Terminal.Overrun := (loses_iff_of_next hturn).2 hover
      exact hbefore k u (Nat.lt_succ_self k) hu hloses

/-- What a strict run leaves whose instruction after those of `t` asks for too much: all is as it
was before it. -/
structure Starved (t : Session) (r : Result) : Prop where
  /-- The error tells the step. -/
  error : ∃ report, r.error = some report ∧ report.kind = .inputUnderflow ∧
    report.message = "Input buffer is empty" ∧ report.step = t.steps
  /-- No other step has been completed. -/
  steps : r.steps = t.steps
  /-- There are no other rows. -/
  trace : r.trace = t.trace.toList
  /-- Nothing else has been written. -/
  output : r.output = t.machine.terminal.output
  /-- The registers have not been written. -/
  registers : r.final.registers = t.machine.processor.registers
  /-- Nor have the flags. -/
  cond : r.final.cond = t.machine.processor.cond

end Session

/-- The cycle that overruns a terminal fails on the strict one, which shows the same. -/
theorem Exec.cycle_of_overrun {device : Device} {instructions : InstructionSet} {m m' : Machine}
    (h : m.Alike (fun t t' => t' = t.on device .underflow) m') (hbefore : ¬ m.terminal.Overrun)
    (hafter : (left (cycle instructions) m).terminal.Overrun) :
    ∃ v, cycle instructions m' = .error (.fault .inputUnderflow) v ∧
      v.processor.registers = m.processor.registers ∧ v.processor.cond = m.processor.cond ∧
      v.terminal.output = m'.terminal.output := by
  have hpolicy : m'.terminal.atEnd.stop? = some (.fault .inputUnderflow) := by
    rw [h.terminal]
    rfl
  have hbefore' : ¬ m'.terminal.Overrun := by
    rw [h.terminal]
    exact hbefore
  have hbuilt := built_cycle instructions
  have hcycle := stops_of_overrun hbuilt m' hpolicy hbefore' (overrun_of_alike hbuilt h hafter)
  refine ⟨_, hcycle, ?_, ?_, output_of_cycle_error hcycle⟩
  all_goals
    rw [h.processor]
    obtain ⟨-, hprocessor⟩ | ⟨w, m₁, -, hprocessor, -⟩ := processor_of_cycle_error hcycle
    all_goals rw [hprocessor]

namespace Session

variable {settings : Settings} {t t' : Session}

/-- **The strict session ends where the lenient one asks for too much.** -/
theorem starved_of_overruns {device : Device} {options : Options}
    (h : t.Alike (fun u u' => u' = u.on device .underflow) t')
    (hbefore : ¬ t.machine.terminal.Overrun) (hover : t.Overruns settings)
    (hdevice : t.machine.terminal.device = device) :
    ∃ ending u r, Ends settings t' ending u ∧
      (u.close ending).result? options ending = some r ∧ t.Starved r := by
  obtain ⟨hrunning, hlimit, hover⟩ := hover
  obtain ⟨m, hcycle, hregisters, hcond, houtput⟩ :=
    Exec.cycle_of_overrun h.machine hbefore hover
  rw [h.machine.processor] at hrunning
  rw [h.steps] at hlimit
  refine ⟨_, _, _, .faulted hrunning hlimit hcycle, rfl, ?_⟩
  constructor
  case error => exact ⟨_, rfl, rfl, rfl, congrArg Nat.cast h.steps.symm⟩
  case steps => exact h.steps.symm
  case trace => exact congrArg Array.toList h.trace.symm
  case output =>
    show m.terminal.flush.output = t.machine.terminal.output
    rw [Terminal.output_flush, houtput, h.machine.terminal, ← hdevice]
    rfl
  case registers => exact hregisters
  case cond => exact hcond

end Session

/-! ## Whole runs -/

section Runs

variable {settings : Settings} {program : Program} {codes : List Nat} {journal : Journal}
  {s t : Session}

theorem runOn_lenient (hlenient : settings.options.strictInput = false) (fuel : Nat) :
    runOn codes fuel settings program journal =
      run fuel settings program (.buffer codes .sentinel) journal := by
  rw [runOn, hlenient]
  rfl

/-- The strict run is the run of the same settings on a strict terminal. -/
theorem runOn_strict {terminal : Terminal}
    (hs : program.session? settings.sorted.options terminal journal = some s) (fuel : Nat) :
    runOn codes fuel settings.strict program journal =
      run fuel settings program (.buffer codes .underflow) journal := by
  have halike : ∃ s', program.session? settings.sorted.options (.buffer codes .underflow) journal =
      some s' ∧ s.Alike (fun _ _ => True) s' := Program.session?_alike trivial hs
  obtain ⟨s', hs', -⟩ := halike
  exact run_strict_settings hs' fuel

/-- As long as no instruction asks for too much, the runs are the same. -/
theorem results_of_not_overruns (hlenient : settings.options.strictInput = false)
    (hs : program.session? settings.sorted.options (.buffer codes .sentinel) journal = some s)
    (hnever : ∀ k t, s.after settings.sorted k = some t → ¬ t.Overruns settings.sorted)
    (fuel : Nat) :
    (runOn codes fuel settings program journal = none ∧
      runOn codes fuel settings.strict program journal = none) ∨
    ∃ c c' r, runOn codes fuel settings program journal = some c ∧
      runOn codes fuel settings.strict program journal = some c' ∧
      c.result = some r ∧ c'.result = some r := by
  rw [runOn_lenient hlenient, runOn_strict hs]
  have hkept : ∀ k t, s.after settings.sorted k = some t →
      ¬ t.Loses settings.sorted fun u => u.atEnd ≠ .underflow ∧ u.Overrun := by
    rintro k t ht ⟨hrunning, hlimit, -, hover⟩
    exact hnever k t ht ⟨hrunning, hlimit, hover⟩
  have hstrict : Terminal.buffer codes .underflow =
      (Terminal.buffer codes .sentinel).on .buffer .underflow := rfl
  obtain hnone | ⟨c, c', r, r', hc, hc', hr, hr', hsame, houtput, hterminal, -⟩ :=
    results_alike (Terminal.simulation_on .buffer .underflow) hstrict hs hkept
      EndOfInput.noConfusion fuel
  · exact .inl hnone
  · have hdevice : c.terminal.device = .buffer :=
      terminal_of_run (Q := fun t => t.device = .buffer) (Machine.closed_device _) hc rfl
    have hshown : c.terminal.output = r'.output := by
      rw [houtput, hterminal, Terminal.output, hdevice]
      rfl
    rw [hshown] at hsame
    exact .inr ⟨c, c', r', hc, hc', hr.trans (congrArg some hsame), hr'⟩

/-- At the first instruction that asks for too much the strict run ends. -/
theorem starved_of_first
    (hs : program.session? settings.sorted.options (.buffer codes .sentinel) journal = some s)
    {k : Nat} (ht : s.after settings.sorted k = some t) (hover : t.Overruns settings.sorted)
    (hfirst : ∀ j u, j < k → s.after settings.sorted j = some u → ¬ u.Overruns settings.sorted) :
    ∃ c r, (∀ fuel, k < fuel → runOn codes fuel settings.strict program journal = some c) ∧
      c.result = some r ∧ t.Starved r := by
  have hstart := Session.terminal_of_session? hs
  have hstrict : Terminal.buffer codes .underflow =
      (Terminal.buffer codes .sentinel).on .buffer .underflow := rfl
  have hfresh : ¬ s.machine.terminal.Overrun := by
    rw [hstart]
    exact List.not_mem_nil
  have hdevice : t.machine.terminal.device = .buffer := by
    refine Session.closed_after (Machine.closed_device .buffer) ht ?_
    rw [hstart]
    rfl
  have hbefore := Session.not_overrun_of_after hfresh ht hfirst
  obtain ⟨s', hs', halike⟩ :=
    Program.session?_alike (R := fun u u' => u' = u.on .buffer .underflow) hstrict hs
  obtain ⟨t', ht', hsame⟩ := Session.after_alike (Terminal.simulation_on .buffer .underflow)
    halike ht fun hlost => hbefore hlost.2
  obtain ⟨ending, u, r, hends, hr, hstarved⟩ :=
    Session.starved_of_overruns hsame hbefore hover hdevice
  refine ⟨(u.close ending).conclusion settings.sorted.options ending, r, fun fuel hfuel => ?_, hr,
    hstarved⟩
  rw [runOn_strict hs]
  exact (run_eq_some_iff hs').2 ⟨k, t', ending, u, hfuel, ht', hends, rfl⟩

/-- **Strict and lenient runs.**  Compare the lenient run of an image with the strict one.  If no
instruction of the lenient run asks for a character where none is left, both come to an end or
neither does, and the results are the same.  Otherwise the strict run ends at the first such
instruction: its result is what the lenient run has come to by then, which is the first part of
whatever that run comes to. -/
theorem run_strict (hlenient : settings.options.strictInput = false)
    (hs : program.session? settings.sorted.options (.buffer codes .sentinel) journal = some s) :
    ((∀ k t, s.after settings.sorted k = some t → ¬ t.Overruns settings.sorted) → ∀ fuel,
      (runOn codes fuel settings program journal = none ∧
        runOn codes fuel settings.strict program journal = none) ∨
      ∃ c c' r, runOn codes fuel settings program journal = some c ∧
        runOn codes fuel settings.strict program journal = some c' ∧
        c.result = some r ∧ c'.result = some r) ∧
    ∀ k t, s.after settings.sorted k = some t → t.Overruns settings.sorted →
      (∀ j u, j < k → s.after settings.sorted j = some u → ¬ u.Overruns settings.sorted) →
      t.steps = k ∧
      (∃ c r, (∀ fuel, k < fuel → runOn codes fuel settings.strict program journal = some c) ∧
        c.result = some r ∧ t.Starved r) ∧
      (∀ j u, t.after settings.sorted j = some u → u.trace.toList.take k = t.trace.toList ∧
        t.machine.terminal.output <+: u.machine.terminal.output) ∧
      ∀ fuel c r, runOn codes fuel settings program journal = some c → c.result = some r →
        r.trace.take k = t.trace.toList ∧ t.machine.terminal.output <+: r.output := by
  refine ⟨results_of_not_overruns hlenient hs, fun k t ht hover hfirst => ?_⟩
  refine ⟨?_, starved_of_first hs ht hover hfirst, fun j u hu => ?_, fun fuel c r hc hr => ?_⟩
  · rw [Session.steps_after ht, Session.steps_of_session? hs, Nat.zero_add]
  · exact prefix_of_after hs ht hu
  · rw [runOn_lenient hlenient] at hc
    exact prefix_of_run hs ht hc hr

end Runs

/-- A program that writes one character and then asks for one. -/
def Program.greeting : Program := .image ⟨0x3000, [0xF021, 0xF020, 0xF025]⟩

/-- Settings that ask for a trace. -/
def Settings.tracing : Settings := { options := { trace := true } }

theorem run_strict_greeting :
    (∃ c c' r, runOn [65] 9 .tracing .greeting ⟨.error, #[]⟩ = some c ∧
      runOn [65] 9 (.strict .tracing) .greeting ⟨.error, #[]⟩ = some c' ∧
      c.result = some r ∧ c'.result = some r ∧ r.steps = 3) ∧
    ∃ c c' r r', runOn [] 9 .tracing .greeting ⟨.error, #[]⟩ = some c ∧ c.result = some r ∧
      r.status = "ok" ∧ r.steps = 3 ∧
      runOn [] 9 (.strict .tracing) .greeting ⟨.error, #[]⟩ = some c' ∧ c'.result = some r' ∧
      r'.steps = 1 ∧ r'.output = [0] ∧ r'.trace = r.trace.take 1 := by
  constructor
  · have hs : Program.greeting.session? (Settings.sorted .tracing).options (.buffer [65] .sentinel)
        ⟨.error, #[]⟩ = some _ := rfl
    have hrun : runOn [65] 9 .tracing .greeting ⟨.error, #[]⟩ = some _ := rfl
    have hnever := (run_strict rfl hs).1 fun k t ht => by
      match k, ht with
      | 0, ht | 1, ht | 2, ht =>
          cases ht
          exact fun hover => absurd hover.2.2 (by decide)
      | 3, ht =>
          cases ht
          exact fun hover => absurd hover.1 (by decide)
      | k + 4, ht => cases ht
    obtain ⟨hnone, -⟩ | ⟨c, c', r, hc, hc', hr, hr'⟩ := hnever 9
    · cases hrun.symm.trans hnone
    · cases hrun.symm.trans hc
      cases hr
      exact ⟨_, c', _, hrun, hc', rfl, hr', rfl⟩
  · have hs : Program.greeting.session? (Settings.sorted .tracing).options (.buffer [] .sentinel)
        ⟨.error, #[]⟩ = some _ := rfl
    have hrun : runOn [] 9 .tracing .greeting ⟨.error, #[]⟩ = some _ := rfl
    obtain ⟨hsteps, ⟨c', r', hc', hr', hstarved⟩, -, hgrows⟩ :=
      (run_strict rfl hs).2 1 _ rfl ⟨rfl, rfl, by decide⟩ fun j u hj hu => by
        cases Nat.lt_one_iff.1 hj
        cases hu
        exact fun hover => absurd hover.2.2 (by decide)
    refine ⟨_, c', _, r', hrun, rfl, rfl, rfl, hc' 9 (by decide), hr', hstarved.steps.trans hsteps,
      hstarved.output.trans rfl, ?_⟩
    exact hstarved.trace.trans (hgrows 9 _ _ hrun rfl).1.symm

end LittleComputer
