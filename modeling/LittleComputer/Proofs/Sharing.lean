import LittleComputer.Proofs.Devices
import LittleComputer.Proofs.Input
import LittleComputer.Run.Shared

/-!
# Runs on a used terminal

Of what has happened at a terminal, a run finds the input that is left and adds to the output that
there is.  Nothing else of an earlier run is left anywhere: a machine is made anew for each program,
and the codes that the terminal still remembers are forgotten before an instruction can show them.

* `Terminal.SameButCodes` — terminals that differ at most in the codes they remember; on such
  terminals **turns come to the same** (`Session.turn_sameButCodes`) and so do runs
  (`run_sameButCodes`).
* `Terminal.behind`, `Terminal.simulation_behind` — a past before the past makes no difference.
* `Conclusion.Follows`, `follows_of_run` — **a run on a used buffer is one on a fresh buffer** over
  the rest of the input, with the earlier output before its own.
* `runAll_shared` — so it is with each of several runs on one buffer.
-/

namespace LittleComputer

/-! ## Leftover codes -/

namespace Terminal

variable {t t' : Terminal}

/-- The terminals differ at most in the codes that they remember. -/
def SameButCodes (t t' : Terminal) : Prop := t.resetCodes = t'.resetCodes

theorem sameButCodes_resetCodes (t : Terminal) : t.SameButCodes t.resetCodes := rfl

/-- Reads do not look at the codes. -/
theorem SameButCodes.read (h : t.SameButCodes t') :
    t.read.1 = t'.read.1 ∧ t.read.2.SameButCodes t'.read.2 := by
  obtain ⟨device, policy, pending, transcript, _, _⟩ := t
  obtain ⟨_, _, _, _, _, _⟩ := t'
  simp only [SameButCodes, resetCodes, mk.injEq] at h
  obtain ⟨rfl, rfl, rfl, rfl, -⟩ := h
  cases pending with
  | nil => cases policy <;> exact ⟨rfl, rfl⟩
  | cons code rest => exact ⟨rfl, rfl⟩

theorem SameButCodes.output (h : t.SameButCodes t') : t.output = t'.output := by
  unfold SameButCodes at h
  show t.resetCodes.output = t'.resetCodes.output
  rw [h]

theorem SameButCodes.pending (h : t.SameButCodes t') : t.pending = t'.pending := by
  unfold SameButCodes at h
  show t.resetCodes.pending = t'.resetCodes.pending
  rw [h]

end Terminal

open Terminal (SameButCodes)

namespace Exec

variable {m m' : Machine}

/-- Fetches come to the same. -/
theorem fetch_sameButCodes (h : m.Alike SameButCodes m') :
    Alike SameButCodes (fetch m) (fetch m') := by
  have hprocessor := congrArg (fun p => { p with ir := none }) h.processor
  have hrelease : m.release.Alike SameButCodes m'.release := ⟨hprocessor, h.memory, h.terminal⟩
  have hload : Alike SameButCodes (load m.processor.pc.toNat m.release)
      (load m.processor.pc.toNat m'.release) := hrelease.load fun _ => h.terminal.read
  rw [fetch_apply, fetch_apply, bind_apply, bind_apply, ← h.processor]
  generalize load m.processor.pc.toNat m.release = result at hload ⊢
  generalize load m.processor.pc.toNat m'.release = result' at hload ⊢
  cases hload with
  | ok w h₁ =>
      refine .ok w ⟨?_, h₁.memory, h₁.terminal⟩
      dsimp only
      rw [h₁.processor]
  | error e h₁ => exact .error e h₁

/-- **Cycles come to the same**: the codes are forgotten before the instruction is carried out. -/
theorem cycle_sameButCodes (instructions : InstructionSet) (h : m.Alike SameButCodes m') :
    (∃ w m₁, cycle instructions m = .ok w m₁ ∧ cycle instructions m' = .ok w m₁) ∨
      ∃ e m₁ m₁', cycle instructions m = .error e m₁ ∧ cycle instructions m' = .error e m₁' ∧
        m₁.Alike SameButCodes m₁' := by
  have hfetch := fetch_sameButCodes h
  generalize hm : fetch m = result at hfetch
  generalize hm' : fetch m' = result' at hfetch
  cases hfetch with
  | error e h₁ =>
      exact .inr ⟨e, _, _, cycle_eq_error_iff.2 (.inl hm), cycle_eq_error_iff.2 (.inl hm'), h₁⟩
  | @ok w m₁ m₁' h₁ =>
      have hreset : m₁'.resetCodes = m₁.resetCodes := by
        have hterminal : m₁.terminal.resetCodes = m₁'.terminal.resetCodes := h₁.terminal
        simp only [Machine.resetCodes, Machine.withTerminal, h₁.processor, h₁.memory, hterminal]
      cases hexec : (decode w.toNat).execute instructions m₁.resetCodes with
      | ok target m₂ =>
          have hexec' := hexec
          rw [← hreset] at hexec'
          exact .inl ⟨w, _, cycle_eq_ok_iff.2 ⟨m₁, target, m₂, hm, hexec, rfl⟩,
            cycle_eq_ok_iff.2 ⟨m₁', target, m₂, hm', hexec', rfl⟩⟩
      | error e m₂ =>
          have hexec' := hexec
          rw [← hreset] at hexec'
          exact .inr ⟨e, m₂, m₂, cycle_eq_error_iff.2 (.inr ⟨w, m₁, hm, hexec⟩),
            cycle_eq_error_iff.2 (.inr ⟨w, m₁', hm', hexec'⟩), rfl, rfl, rfl⟩

end Exec

namespace Session

variable (settings : Settings) {s s' : Session}

/-- **Turns come to the same**, and after a completed one nothing is left of the codes. -/
theorem turn_sameButCodes (h : s.Alike SameButCodes s') :
    (∃ t, s.turn settings = .next t ∧ s'.turn settings = .next t) ∨
      (∃ ending t t', s.turn settings = .over ending t ∧ s'.turn settings = .over ending t' ∧
        t.Alike SameButCodes t') ∨
      (s.turn settings = .endless ∧ s'.turn settings = .endless) := by
  obtain ⟨m, steps, trace, journal⟩ := s
  obtain ⟨m', steps', trace', journal'⟩ := s'
  obtain ⟨hm, hsteps, htrace, hjournal⟩ := h
  dsimp only at hm hsteps htrace hjournal
  subst hsteps htrace hjournal
  have hfailed : ∀ {v v' : Machine} (report : Report), v.Alike SameButCodes v' →
      (Session.failed ⟨v, steps, trace, journal⟩ report).Alike SameButCodes
        (Session.failed ⟨v', steps, trace, journal⟩ report) := by
    intro v v' report hv
    have hprocessor := congrArg (fun p => { p with status := .faulted }) hv.processor
    exact ⟨⟨hprocessor, hv.memory, hv.terminal⟩, rfl, rfl, rfl⟩
  simp only [turn, ← hm.processor]
  by_cases hrunning : m.processor.running = true
  · rw [if_pos hrunning, if_pos hrunning]
    cases hlimit : settings.options.exhausted? steps with
    | some limit => exact .inr (.inl ⟨_, _, _, rfl, rfl, hfailed _ hm⟩)
    | none =>
        dsimp only
        obtain ⟨w, m₁, hcycle, hcycle'⟩ | ⟨e, m₁, m₁', hcycle, hcycle', hm₁⟩ :=
          Exec.cycle_sameButCodes settings.instructions hm
        · rw [hcycle, hcycle']
          exact .inl ⟨_, rfl, rfl⟩
        · rw [hcycle, hcycle']
          cases e with
          | fault cause =>
              dsimp only
              rw [← hm₁.processor]
              exact .inr (.inl ⟨_, _, _, rfl, rfl, hfailed _ hm₁⟩)
          | interrupted => exact .inr (.inl ⟨_, _, _, rfl, rfl, hm₁, rfl, rfl, rfl⟩)
          | endless => exact .inr (.inr ⟨rfl, rfl⟩)
  · rw [if_neg hrunning, if_neg hrunning]
    exact .inr (.inl ⟨_, _, _, rfl, rfl, hm, rfl, rfl, rfl⟩)

/-- **Runs come to the same.** -/
theorem runFor_sameButCodes (h : s.Alike SameButCodes s') {fuel : Nat} {ending : Ending}
    {t : Session} (hrun : runFor settings fuel s = some (ending, t)) :
    ∃ t', runFor settings fuel s' = some (ending, t') ∧ t.Alike SameButCodes t' := by
  cases fuel with
  | zero => cases hrun
  | succ fuel =>
      rw [runFor] at hrun ⊢
      obtain ⟨u, hturn, hturn'⟩ | ⟨ending', u, u', hturn, hturn', hu⟩ | ⟨hturn, hturn'⟩ :=
        turn_sameButCodes settings h
      · -- from here on they are one run
        rw [hturn] at hrun
        rw [hturn']
        exact ⟨t, hrun, ⟨rfl, rfl, rfl⟩, rfl, rfl, rfl⟩
      · rw [hturn] at hrun
        cases hrun
        rw [hturn']
        exact ⟨_, rfl, hu.close (fun h => congrArg Terminal.flush h) ending⟩
      · rw [hturn] at hrun
        cases hrun

end Session

/-- **Runs of programs come to the same.** -/
theorem run_sameButCodes {settings : Settings} {program : Program} {terminal terminal' : Terminal}
    (h : terminal.SameButCodes terminal') {journal : Journal} {fuel : Nat} {c : Conclusion}
    (hrun : run fuel settings program terminal journal = some c) :
    ∃ c', run fuel settings program terminal' journal = some c' ∧ c.result = c'.result ∧
      c.terminal.SameButCodes c'.terminal ∧ c.journal = c'.journal := by
  cases hs : program.session? settings.sorted.options terminal journal with
  | none =>
      obtain ⟨e, journal', hnone⟩ := run_of_session?_eq_none hs
      rw [hnone] at hrun
      cases hrun
      exact ⟨_, hnone _ _, rfl, h, rfl⟩
  | some s =>
      obtain ⟨s', hs', halike⟩ := Program.session?_alike h hs
      rw [run_of_session? hs, Option.map_eq_some_iff] at hrun
      obtain ⟨⟨ending, t⟩, ht, rfl⟩ := hrun
      obtain ⟨t', ht', hend⟩ := Session.runFor_sameButCodes settings.sorted halike ht
      rw [run_of_session? hs', ht']
      refine ⟨_, rfl, ?_, hend.machine.terminal, hend.journal⟩
      have hreport := hend.report settings.sorted.options
      simp only [hend.machine.terminal.output] at hreport
      cases ending with
      | halted => exact congrArg some (hreport none)
      | faulted report => exact congrArg some (hreport (some report))
      | interrupted => rfl

/-! ## A past before the past -/

namespace Terminal

/-- The terminal, with more of a past. -/
def behind (past : Array Event) (t : Terminal) : Terminal :=
  { t with transcript := past ++ t.transcript }

variable (past : Array Event) (t t' : Terminal)

theorem record_behind (event : Event) :
    (t.behind past).record event = (t.record event).behind past := by
  simp [behind, record]

theorem read_behind : (t.behind past).read = (t.read.1, t.read.2.behind past) := by
  obtain ⟨_, policy, pending, _, _, _⟩ := t
  cases pending with
  | nil => cases policy <;> simp [read, record, behind]
  | cons code rest => simp [read, record, behind]

theorem writeAll_behind (codes : List Int) :
    (t.behind past).writeAll codes = (t.writeAll codes).behind past := by
  induction codes generalizing t with
  | nil => rfl
  | cons code rest ih =>
      have hwrite : (t.behind past).write code = (t.write code).behind past := by
        simp [write, record, behind]
      show ((t.behind past).write code).writeAll rest = ((t.write code).writeAll rest).behind past
      rw [hwrite, ih]

/-- The output of the past comes first. -/
theorem output_behind (h : t.device = .buffer) :
    (t.behind t'.transcript).output = t'.written ++ t.output := by
  have hbehind : (t.behind t'.transcript).device = .buffer := h
  rw [output, output, hbehind, h]
  simp [behind, written]

/-- A past makes no difference. -/
theorem simulation_behind :
    Simulation (fun t t' => t = t'.behind past) fun _ => False where
  codes := by
    rintro _ t rfl
    exact ⟨rfl, rfl⟩
  read := by
    rintro _ t rfl
    rw [read_behind]
    exact .inr ⟨rfl, rfl⟩
  writeAll := by
    rintro _ t codes rfl
    exact writeAll_behind past t codes
  flush := by
    rintro _ t rfl
    exact record_behind past t .flushed
  resetCodes := by
    rintro _ t rfl
    rfl
  lost := Machine.closed_false

/-- But for its codes, a used buffer is a fresh one with a past. -/
theorem resetCodes_eq_behind (h : t.device = .buffer) :
    t.resetCodes = (buffer t.pending t.atEnd).behind t.transcript := by
  obtain ⟨device, _, _, _, _, _⟩ := t
  cases h
  simp [resetCodes, buffer, behind]

end Terminal

/-! ## Used buffers -/

/-- `c.Follows before program c'` : the run of the program that came to `c` on the terminal `before`
is the one that came to `c'` on a terminal without a past. -/
structure Conclusion.Follows (c : Conclusion) (before : Terminal) (program : Program)
    (c' : Conclusion) : Prop where
  /-- The results are the same, but what was there before comes first in the output.  A program that
  is no image does not show the output. -/
  result : ∃ r r', c.result = some r ∧ c'.result = some r' ∧
    r = { r' with
      output := if program.image?.isSome then before.written ++ r'.output else [] }
  /-- Such a program does nothing to the terminal. -/
  untouched : program.image? = none → c.terminal = before
  /-- The same input is left. -/
  pending : c.terminal.pending = c'.terminal.pending
  /-- The same has been reported. -/
  journal : c.journal = c'.journal

/-- **A run on a used buffer** is one on a fresh buffer over the rest of the input, with the earlier
output before its own. -/
theorem follows_of_run {settings : Settings} {program : Program} {before : Terminal}
    {journal : Journal} (hdevice : before.device = .buffer) (hend : before.atEnd ≠ .interrupt)
    {fuel : Nat} {c : Conclusion} (h : run fuel settings program before journal = some c) :
    ∃ c', run fuel settings program (.buffer before.pending before.atEnd) journal = some c' ∧
      c.Follows before program c' := by
  cases himage : program.image? with
  | none =>
      have hs := Program.session?_eq_none himage settings.sorted.options before journal
      obtain ⟨e, journal', hrun⟩ := run_of_session?_eq_none hs
      rw [hrun] at h
      cases h
      refine ⟨_, hrun _ _, ⟨_, _, rfl, rfl, ?_⟩, fun _ => rfl, rfl, rfl⟩
      rw [himage]
      rfl
  | some image =>
      -- first the codes are forgotten, then the past is taken away
      obtain ⟨c₁, hc₁, hresult, hcodes, hjournal⟩ :=
        run_sameButCodes before.sameButCodes_resetCodes h
      rw [Terminal.resetCodes_eq_behind before hdevice] at hc₁
      obtain ⟨journal', hs⟩ := Program.session?_of_image? himage settings.sorted.options
        ((Terminal.buffer before.pending before.atEnd).behind before.transcript) journal
      obtain ⟨c', r, r', hc', hr, hr', hsame, houtput, hbehind, hjournal'⟩ :=
        results_of_run_alike (Terminal.simulation_behind before.transcript) rfl hs
          (fun _ _ _ hloses => hloses.2.2) hend hc₁
      have hbuffer : c'.terminal.device = .buffer :=
        terminal_of_run (Q := fun t => t.device = .buffer) (Machine.closed_device _) hc' rfl
      have hshown : c₁.terminal.output = before.written ++ r'.output := by
        rw [houtput, hbehind, Terminal.output_behind _ _ hbuffer]
      refine ⟨c', hc', ⟨r, r', hresult.trans hr, hr', ?_⟩, ?_, ?_, hjournal.trans hjournal'⟩
      · rw [hsame, hshown, himage]
        rfl
      · intro hnone
        rw [himage] at hnone
        cases hnone
      · rw [hcodes.pending, hbehind]
        rfl

/-! ## Several runs -/

/-- Each of several runs begins where the one before it has ended, and there the terminal still is
what runs cannot change. -/
theorem run_of_runAll {Q : Terminal → Prop} (hQ : Machine.Closed fun m => Q m.terminal)
    {fuel : Nat} {instructions : InstructionSet} {level : Level} {shared : Options}
    {terminal : Terminal} {jobs : List Job} {conclusions : List Conclusion} (hq : Q terminal)
    (h : runAll fuel instructions level shared terminal jobs = some conclusions) :
    conclusions.length = jobs.length ∧
    ∀ (j : Nat) (job : Job) (c : Conclusion) (before : Terminal), jobs[j]? = some job →
      conclusions[j]? = some c →
      (terminal :: conclusions.map Conclusion.terminal)[j]? = some before →
      Q before ∧ ∃ o, run fuel { options := job.options.getD o, instructions } job.program before
        ⟨level, #[]⟩ = some c := by
  induction jobs generalizing shared terminal conclusions with
  | nil =>
      cases h
      refine ⟨rfl, fun j job c before hjob => ?_⟩
      simp at hjob
  | cons job jobs ih =>
      rw [runAll] at h
      split at h
      · rename_i c shared' hjob
        obtain ⟨rest, hrest, rfl⟩ := Option.map_eq_some_iff.1 h
        have hrun : run fuel { options := job.options.getD shared, instructions } job.program
            terminal ⟨level, #[]⟩ = some c := by
          unfold Job.run at hjob
          dsimp only at hjob
          split at hjob
          · rename_i conclusion hrun
            cases hjob
            exact hrun
          · cases hjob
        obtain ⟨hlength, hothers⟩ := ih (terminal_of_run hQ hrun hq) hrest
        refine ⟨by rw [List.length_cons, List.length_cons, hlength], ?_⟩
        intro j job' c' before hjob' hc' hbefore
        cases j with
        | zero =>
            cases hjob'
            cases hc'
            cases hbefore
            exact ⟨hq, shared, hrun⟩
        | succ j => exact hothers j job' c' before hjob' hc' hbefore
      · cases h

/-- **Runs that share a buffer add up.**  Of several programs that are run one after the other on
one buffer, each that brings its own options finds the part of the input that the ones before it
have left, and its run is the one on a fresh buffer over that part, with all of the earlier output
before its own. -/
theorem runAll_shared {fuel : Nat} {instructions : InstructionSet} {level : Level}
    {shared : Options} {codes : List Nat} {strict : Bool} {jobs : List Job}
    {conclusions : List Conclusion}
    (h : runAll fuel instructions level shared (.buffer codes (.ofStrict strict)) jobs =
      some conclusions) :
    conclusions.length = jobs.length ∧
    ∀ (j : Nat) (job : Job) (o : Options) (c : Conclusion) (before : Terminal),
      jobs[j]? = some job → job.options = some o → conclusions[j]? = some c →
      (Terminal.buffer codes (.ofStrict strict) :: conclusions.map Conclusion.terminal)[j]? =
        some before →
      ∃ p c', p ≤ codes.length ∧ before.received = codes.take p ∧ before.pending = codes.drop p ∧
        run fuel { options := o, instructions } job.program
          (.buffer (codes.drop p) (.ofStrict strict)) ⟨level, #[]⟩ = some c' ∧
        c.Follows before job.program c' := by
  have hend : EndOfInput.ofStrict strict ≠ .interrupt := by cases strict <;> decide
  obtain ⟨hlength, hdevices⟩ :=
    run_of_runAll (Q := fun t => t.device = .buffer) (Machine.closed_device _) rfl h
  obtain ⟨-, hpolicies⟩ :=
    run_of_runAll (Q := fun t => t.atEnd = .ofStrict strict) (Machine.closed_atEnd _) rfl h
  obtain ⟨-, hinputs⟩ :=
    run_of_runAll (Q := fun t => t.received ++ t.pending = codes) (Machine.closed_input _) rfl h
  refine ⟨hlength, fun j job o c before hjob hown hc hbefore => ?_⟩
  obtain ⟨hdevice, o', hrun⟩ := hdevices j job c before hjob hc hbefore
  obtain ⟨hpolicy, -⟩ := hpolicies j job c before hjob hc hbefore
  obtain ⟨hinput, -⟩ := hinputs j job c before hjob hc hbefore
  rw [hown, Option.getD_some] at hrun
  rw [← hpolicy] at hend ⊢
  obtain ⟨c', hc', hfollows⟩ := follows_of_run hdevice hend hrun
  have htake : codes.take before.received.length = before.received := by
    rw [← hinput, List.take_left]
  have hdrop : codes.drop before.received.length = before.pending := by
    rw [← hinput, List.drop_left]
  refine ⟨before.received.length, c', ?_, htake.symm, hdrop.symm, ?_, hfollows⟩
  · rw [← hinput, List.length_append]
    omega
  · rw [hdrop]
    exact hc'

/-- Four programs with options of their own: one that is stopped after an echo, so that the terminal
remembers the codes, one that is no image, one that fails with a character taken from the keyboard
status register, and one that has an echo and halts. -/
def Job.handovers : List Job :=
  [{ program := .image ⟨0x3000, [0xF023]⟩, options := some { maxSteps := some 1 } },
   { program := .bytes [0x30], options := some {} },
   { program := .image ⟨0x3000, [0x2201, 0xC040, 0xFE00]⟩, options := some {} },
   { program := .image ⟨0x3000, [0xF023, 0xF025]⟩, options := some { trace := true } }]

theorem runAll_shared_handovers :
    ∃ conclusions before c r c' r',
      runAll 9 .complete .error {} (.buffer [65, 66, 67] (.ofStrict true)) Job.handovers =
        some conclusions ∧ conclusions.length = 4 ∧
      (conclusions.map Conclusion.terminal)[2]? = some before ∧ conclusions[3]? = some c ∧
      run 9 { options := { trace := true } } (.image ⟨0x3000, [0xF023, 0xF025]⟩)
        (.buffer [67] (.ofStrict true)) ⟨.error, #[]⟩ = some c' ∧
      c.result = some r ∧ c'.result = some r' ∧
      r = { r' with output := [65] ++ r'.output } ∧ r.output = [65, 67] := by
  have hrun : runAll 9 .complete .error {} (.buffer [65, 66, 67] (.ofStrict true)) Job.handovers =
      some _ := rfl
  obtain ⟨hlength, hjobs⟩ := runAll_shared hrun
  obtain ⟨p, c', -, -, hpending, hfresh, hfollows⟩ := hjobs 3 _ _ _ _ rfl rfl rfl rfl
  rw [← hpending] at hfresh
  obtain ⟨r, r', hr, hr', hsame⟩ := hfollows.result
  refine ⟨_, _, _, r, c', r', hrun, hlength, rfl, rfl, hfresh, hr, hr', hsame, ?_⟩
  cases hr
  rfl

end LittleComputer
