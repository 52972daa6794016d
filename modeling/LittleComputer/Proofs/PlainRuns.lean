import LittleComputer.Plain.Document
import LittleComputer.Proofs.Refinement

/-!
# Plain runs

A run of the plain machine is a run of the machine of words: turn by turn its sessions hold those of
the other, it ends when that ends and in the same way, and its result is the other's in plain
integers.

* `TraceRow.plain`, `Result.plain` — rows and results in plain integers; `Result.document_plain` —
  as documents they are the same.
* `Session.Rendered`, `Session.rendered_turn` — **turns do the same**.
* `Plain.Session.after`, `Session.rendered_after` — so do sequences of turns;
  `Session.rendered_runFor` — and runs of sessions.
* `Program.rendered_session?` — runs of programs start in the same way.
* `Conclusion.Rendered`, `rendered_run` — **runs of programs do the same**.
-/

namespace LittleComputer

/-! ## Rows and results -/

/-- A row in plain integers. -/
def TraceRow.plain (row : TraceRow) : Plain.TraceRow where
  step := row.step
  addr := row.addr.plain
  instr := row.instr.plain
  registers := row.registers.toList.map Word.plain
  pc := row.pc.plain
  cond := row.cond
  watched := row.watched.map fun cell => (cell.1.plain, cell.2.plain)
  codes := row.codes.map fun codes => (codes.1, codes.2.map fun byte => (byte.toNat : Int))

/-- A result in plain integers. -/
def Result.plain (r : Result) : Plain.Result where
  output := r.output.map BitVec.toNat
  steps := r.steps
  final := r.final.plain
  watch := r.watch
  trace := r.trace.map TraceRow.plain
  error := r.error

theorem Processor.document_plain (p : Processor) : p.plain.document = p.document := by
  have hfields : p.plain.registers.toList.zipIdx.map
        (fun field => ("r" ++ toString field.2, Json.integer field.1)) =
      p.registers.toList.zipIdx.map fun field =>
        ("r" ++ toString field.2, Json.ofWord field.1) := by
    rw [Processor.plain, Array.toList_map, List.zipIdx_map, List.map_map]
    rfl
  exact congrArg (fun fields => Json.object (fields ++ [("pc", .integer p.pc.plain),
    ("cond", Json.ofText? p.cond.name?), ("state", .text p.status.name)])) hfields

theorem TraceRow.document_plain (row : TraceRow) : row.plain.document = row.document := by
  obtain ⟨step, addr, instr, registers, pc, cond, watched, codes⟩ := row
  have hregisters : (registers.toList.map Word.plain).map Json.integer =
      registers.toList.map Json.ofWord := by
    rw [List.map_map]
    rfl
  have hwatched : (watched.map fun cell => (cell.1.plain, cell.2.plain)).map
        (fun cell => (toString cell.1, Json.integer cell.2)) =
      watched.map fun cell => (toString cell.1.toNat, Json.ofWord cell.2) := by
    rw [List.map_map]
    rfl
  simp only [TraceRow.plain, Plain.TraceRow.document, TraceRow.document, hregisters, hwatched]
  cases codes <;> rfl

/-- **As documents results are the same.** -/
theorem Result.document_plain (r : Result) : r.plain.document = r.document := by
  have houtput : String.ofList ((r.output.map BitVec.toNat).map Char.ofNat) =
      Text.ofBytes r.output := by
    rw [List.map_map]
    rfl
  have htrace : (r.trace.map TraceRow.plain).map Plain.TraceRow.document =
      r.trace.map TraceRow.document := by
    rw [List.map_map]
    exact List.map_congr_left fun row _ => row.document_plain
  simp only [Plain.Result.document, Plain.Result.fields, Result.plain, houtput, htrace,
    Processor.document_plain]
  rfl

/-- An ending of a plain run. -/
def Ending.plain : Ending → Plain.Ending
  | halted => .halted
  | faulted report => .faulted report
  | interrupted => .escaped (.stop .interrupted)

variable {σ : Type} [Provider σ] {R : Port σ → Terminal → Prop}

/-! ## Turns -/

/-- `s.Rendered R p` : the plain session `p` holds `s`. -/
structure Session.Rendered (R : Port σ → Terminal → Prop) (s : Session) (p : Plain.Session σ) :
    Prop where
  /-- Its machine does. -/
  machine : s.machine.Rendered R p.machine
  /-- As many instructions have been completed. -/
  steps : s.steps = p.steps
  /-- The rows are the same. -/
  trace : s.trace.map TraceRow.plain = p.trace
  /-- The same has been reported. -/
  journal : s.journal = p.journal

/-- What a plain turn comes to, and what the turn on words does. -/
inductive Turn.Rendered (R : Port σ → Terminal → Prop) : Turn → Plain.Turn σ → Prop
  /-- An instruction has been completed. -/
  | next {t : Session} {q : Plain.Session σ} (h : t.Rendered R q) : Rendered R (.next t) (.next q)
  /-- The run is over. -/
  | ended (ending : Ending) {t : Session} {q : Plain.Session σ} (h : t.Rendered R q) :
      Rendered R (.over ending t) (.over ending.plain q)
  /-- The turn never ends. -/
  | endless : Rendered R .endless .endless

namespace Session

variable (sim : Port.Simulation R) (settings : Settings) {s t : Session} {p : Plain.Session σ}

include sim

theorem rendered_row {m : Machine} {p : Plain.Machine σ} (h : m.Rendered R p) (step : Nat)
    (addr instr : Word) (watch : List Int) (withCodes : Bool) :
    Plain.TraceRow.after p step addr.plain instr.plain watch withCodes =
      .ok (TraceRow.after m step addr instr watch withCodes).plain := by
  obtain ⟨hmemory, hport⟩ := h
  obtain ⟨hin, hout⟩ := sim.codes hport
  rw [Plain.TraceRow.after, hmemory.watched]
  have hregisters : m.processor.plain.registers.toList = m.processor.registers.toList.map Word.plain
      := Array.toList_map
  simp only [Except.map, hregisters, hin, hout]
  cases withCodes <;> rfl

theorem rendered_advance {m : Machine} {p : Plain.Machine σ} (h : m.Rendered R p) (o : Options)
    (steps : Nat) (trace : Array TraceRow) (journal : Journal) (address w : Word) :
    Turn.Rendered R (.next (advance o ⟨m, steps, trace, journal⟩ address w))
      (Plain.Session.advance o ⟨p, steps, trace.map TraceRow.plain, journal⟩ address.plain
        w.plain) := by
  unfold advance Plain.Session.advance
  dsimp only
  cases htrace : o.trace with
  | false => exact .next ⟨h, rfl, rfl, rfl⟩
  | true =>
      rw [if_pos rfl, rendered_row sim h]
      refine .next ⟨h, rfl, ?_, rfl⟩
      simp

omit [Provider σ] sim in
theorem rendered_fail {s : Session} {p : Plain.Session σ} (h : s.Rendered R p) (report : Report) :
    Turn.Rendered R (s.fail report) (p.fail report) := by
  obtain ⟨hmachine, hsteps, htrace, hjournal⟩ := h
  obtain ⟨m, steps, trace, journal⟩ := s
  obtain ⟨p, steps', trace', journal'⟩ := p
  dsimp only at hmachine hsteps htrace hjournal
  subst hsteps htrace hjournal
  obtain ⟨hmemory, hport⟩ := hmachine
  exact .ended (.faulted report) ⟨⟨hmemory, hport⟩, rfl, rfl, rfl⟩

/-- **Turns do the same.** -/
theorem rendered_turn (h : s.Rendered R p) :
    Turn.Rendered R (s.turn settings) (p.turn settings) := by
  obtain ⟨hmachine, hsteps, htrace, hjournal⟩ := h
  obtain ⟨m, steps, trace, journal⟩ := s
  obtain ⟨p, steps', trace', journal'⟩ := p
  dsimp only at hmachine hsteps htrace hjournal
  subst hsteps htrace hjournal
  have hcycle := Exec.rendered_cycle sim settings.instructions m p hmachine
  have hprocessor : p.processor = m.processor.plain := by
    obtain ⟨hmemory, hport⟩ := hmachine
    rfl
  unfold turn Plain.Session.turn
  simp only [hprocessor]
  have hrunning : m.processor.plain.running = m.processor.running := rfl
  rw [hrunning]
  split
  · cases hlimit : settings.options.exhausted? steps with
    | some limit => exact rendered_fail ⟨hmachine, rfl, rfl, rfl⟩ _
    | none =>
        dsimp only
        generalize Exec.cycle settings.instructions m = result at hcycle ⊢
        generalize Plain.Exec.cycle settings.instructions p = result' at hcycle ⊢
        cases hcycle with
        | ok w h => exact rendered_advance sim h _ _ _ _ _ _
        | error e h =>
            cases e with
            | fault cause =>
                obtain ⟨hmemory, hport⟩ := h
                exact rendered_fail ⟨⟨hmemory, hport⟩, rfl, rfl, rfl⟩ _
            | interrupted => exact .ended .interrupted ⟨h, rfl, rfl, rfl⟩
            | endless => exact .endless
        | endless m p => exact .endless
  · exact .ended .halted ⟨hmachine, rfl, rfl, rfl⟩

end Session

/-! ## Sequences of turns -/

/-- The session after `n` turns, if none of them ended the run. -/
def Plain.Session.after (settings : Settings) : (n : Nat) → Plain.Session σ →
    Option (Plain.Session σ)
  | 0, p => some p
  | n + 1, p =>
    match p.turn settings with
    | .next q => after settings n q
    | _ => none

namespace Session

variable (sim : Port.Simulation R) (settings : Settings) {s t : Session} {p : Plain.Session σ}

include sim

/-- **Sequences of turns do the same.** -/
theorem rendered_after (h : s.Rendered R p) (n : Nat) :
    (s.after settings n = none ∧ p.after settings n = none) ∨
      ∃ t q, s.after settings n = some t ∧ p.after settings n = some q ∧ t.Rendered R q := by
  induction n generalizing s p with
  | zero => exact .inr ⟨s, p, rfl, rfl, h⟩
  | succ n ih =>
      have hturn := rendered_turn sim settings h
      rw [after, Plain.Session.after]
      generalize s.turn settings = turn at hturn ⊢
      generalize p.turn settings = turn' at hturn ⊢
      cases hturn with
      | next h => exact ih h
      | ended ending h => exact .inl ⟨rfl, rfl⟩
      | endless => exact .inl ⟨rfl, rfl⟩

omit sim in
theorem rendered_close (hflush : ∀ {p : Port σ} {t}, R p t → R p.flush t.flush)
    (h : s.Rendered R p) (ending : Ending) :
    (s.close ending).Rendered R (p.close ending.plain) := by
  obtain ⟨hmachine, hsteps, htrace, hjournal⟩ := h
  obtain ⟨m, steps, trace, journal⟩ := s
  obtain ⟨p, steps', trace', journal'⟩ := p
  dsimp only at hmachine hsteps htrace hjournal
  subst hsteps htrace hjournal
  obtain ⟨hmemory, hport⟩ := hmachine
  cases ending <;> exact ⟨⟨hmemory, hflush hport⟩, rfl, rfl, rfl⟩

/-- **Runs of sessions do the same.** -/
theorem rendered_runFor (h : s.Rendered R p) (fuel : Nat) :
    (s.runFor settings fuel = none ∧ p.runFor settings fuel = none) ∨
      ∃ ending t q, s.runFor settings fuel = some (ending, t) ∧
        p.runFor settings fuel = some (ending.plain, q) ∧ t.Rendered R q := by
  induction fuel generalizing s p with
  | zero => exact .inl ⟨rfl, rfl⟩
  | succ fuel ih =>
      have hturn := rendered_turn sim settings h
      rw [runFor, Plain.Session.runFor]
      generalize s.turn settings = turn at hturn ⊢
      generalize p.turn settings = turn' at hturn ⊢
      cases hturn with
      | next h => exact ih h
      | ended ending h =>
          exact .inr ⟨ending, _, _, rfl, rfl, rendered_close sim.flush h ending⟩
      | endless => exact .inl ⟨rfl, rfl⟩

end Session

/-! ## Programs -/

/-- What is left of a run, in plain integers. -/
structure Conclusion.Rendered (R : Port σ → Terminal → Prop) (c : Conclusion)
    (c' : Plain.Conclusion σ) : Prop where
  /-- There is the same result, and none if the user has interrupted the run. -/
  outcome : c'.outcome = match c.result with
    | some r => .ok r.plain
    | none => .error (.stop .interrupted)
  /-- The port shows the terminal. -/
  port : R c'.port c.terminal
  /-- The same has been reported. -/
  journal : c'.journal = c.journal

namespace Conclusion.Rendered

variable {c : Conclusion} {c' : Plain.Conclusion σ} (h : c.Rendered R c')

include h

omit [Provider σ]

/-- A result comes from a result. -/
theorem of_ok {r' : Plain.Result} (hr : c'.outcome = .ok r') :
    ∃ r, c.result = some r ∧ r' = r.plain := by
  have houtcome := h.outcome
  rw [hr] at houtcome
  cases hresult : c.result with
  | none =>
      rw [hresult] at houtcome
      cases houtcome
  | some r =>
      rw [hresult] at houtcome
      exact ⟨r, rfl, Except.ok.inj houtcome⟩

/-- Nothing but an interrupt escapes. -/
theorem of_error {e : Break} (he : c'.outcome = .error e) :
    c.result = none ∧ e = .stop .interrupted := by
  have houtcome := h.outcome
  rw [he] at houtcome
  cases hresult : c.result with
  | none =>
      rw [hresult] at houtcome
      exact ⟨rfl, Except.error.inj houtcome⟩
  | some r =>
      rw [hresult] at houtcome
      cases houtcome

end Conclusion.Rendered

section Programs

variable (sim : Port.Simulation R) {terminal : Terminal} {port : Port σ} (hport : R port terminal)

include hport

omit [Provider σ] in
/-- Memory is filled and the image placed. -/
theorem rendered_startWith (options : Options) (image : Image) (journal : Journal) :
    ∃ memory, Plain.Memory.empty.assign options.initialMemory.entries = (.ok (), memory) ∧
      ∃ p, Plain.Session.startWith memory options image port journal = .ok p ∧
        (Session.start options image terminal journal).Rendered R p := by
  obtain ⟨memory, hassign, hfilled⟩ :=
    Memory.rendered_empty.assign options.initialMemory.entries
  obtain ⟨memory', hload, hplaced⟩ := hfilled.load image.origin image.words
  refine ⟨memory, hassign, ?_⟩
  simp only [Plain.Session.startWith, hload, ← Processor.plain_reset]
  exact ⟨_, rfl, ⟨hplaced, hport⟩, rfl, Array.map_empty, rfl⟩

omit [Provider σ] in
/-- **Runs of programs start in the same way.**  Where there is no image, both are over at once. -/
theorem Program.rendered_session? (settings : Settings) (program : Program) (journal : Journal) :
    (∃ s p, program.session? settings.sorted.options terminal journal = some s ∧
      Plain.prepare settings program port journal = .ok p ∧ s.Rendered R p) ∨
    ∃ e journal', program.session? settings.sorted.options terminal journal = none ∧
      Plain.prepare settings program port journal =
        .error { outcome := .ok (Plain.unparsed settings.options e), port, journal := journal' } ∧
      ∀ fuel, run fuel settings program terminal journal =
        some { result := some (unparsed settings.options e), terminal, journal := journal' } := by
  have hplaced : ∀ image journal, ∃ memory,
      Plain.Memory.empty.assign settings.options.initialMemory.entries = (.ok (), memory) ∧
        ∃ p, Plain.prepare.place settings port memory image journal = .ok p ∧
          (Session.start settings.sorted.options image terminal journal).Rendered R p := by
    intro image journal
    obtain ⟨memory, hassign, p, hstart, h⟩ :=
      rendered_startWith hport settings.sorted.options image journal
    refine ⟨memory, hassign, p, ?_, h⟩
    have hstart' : Plain.Session.startWith memory settings.options.sortWatch image port journal =
      .ok p := hstart
    simp only [Plain.prepare.place, hstart']
  cases program with
  | image image =>
      obtain ⟨memory, hassign, p, hp, h⟩ := hplaced image journal
      refine .inl ⟨_, p, rfl, ?_, h⟩
      simp only [Plain.prepare, hassign, hp]
  | bytes data =>
      rcases hread : Image.read data journal with ⟨loaded, journal'⟩
      cases loaded with
      | ok image =>
          obtain ⟨memory, hassign, p, hp, h⟩ := hplaced image journal'
          refine .inl ⟨_, p, ?_, ?_, h⟩
          · simp only [session?, hread]
          · simp only [Plain.prepare, hassign, hread, hp]
      | error e =>
          obtain ⟨memory, hassign, -⟩ := hplaced ⟨0, []⟩ journal'
          refine .inr ⟨e, journal', ?_, ?_, fun fuel => ?_⟩
          · simp only [session?, hread]
          · simp only [Plain.prepare, hassign, hread]
          · simp only [run, hread]

omit hport [Provider σ] in
theorem plain_unparsed (o : Options) (e : Image.Error) :
    (unparsed o e).plain = Plain.unparsed o e := by
  rw [Plain.unparsed, ← Processor.plain_reset]
  rfl

omit hport in
/-- A plain run is a run of its first session. -/
theorem run_of_prepare {settings : Settings} {program : Program} {journal : Journal}
    {p : Plain.Session σ} (h : Plain.prepare settings program port journal = .ok p) (fuel : Nat) :
    Plain.run fuel settings program port journal =
      (p.runFor settings.sorted fuel).map fun r => r.2.conclusion settings.sorted.options r.1 := by
  simp only [Plain.run, h]
  rfl

include sim

omit hport in
theorem rendered_report {s : Session} {p : Plain.Session σ} (h : s.Rendered R p)
    (options : Options) (error : Option Report) :
    Plain.Session.outcome.report options p error = (Session.result?.report options s error).plain
    := by
  obtain ⟨hmachine, hsteps, htrace, -⟩ := h
  obtain ⟨p, steps', trace', journal'⟩ := p
  dsimp only at hmachine hsteps htrace
  subst hsteps htrace
  obtain ⟨-, hport⟩ := hmachine
  have houtput := sim.output hport
  simp only [Plain.Session.outcome.report, Session.result?.report, Result.plain, houtput,
    Array.toList_map]

omit hport in
/-- A plain session shows the result of the session that it holds. -/
theorem rendered_conclusion {s : Session} {p : Plain.Session σ} (h : s.Rendered R p)
    (options : Options) (ending : Ending) :
    (s.conclusion options ending).Rendered R (p.conclusion options ending.plain) := by
  constructor
  case outcome =>
    have hreport := rendered_report sim h options
    cases ending with
    | halted => exact congrArg Except.ok (hreport none)
    | faulted report => exact congrArg Except.ok (hreport (some report))
    | interrupted => rfl
  case port =>
    obtain ⟨hmachine, -⟩ := h
    obtain ⟨p, _, _, _⟩ := p
    cases hmachine with
    | intro _ hport => exact hport
  case journal => exact h.journal.symm

/-- **Runs of programs do the same**, on ports that keep in step with terminals: a plain run ends if
the run on words does, and then its result is the other's, and nothing but an interrupt escapes. -/
theorem rendered_run (fuel : Nat) (settings : Settings) (program : Program) (journal : Journal) :
    (run fuel settings program terminal journal = none ∧
      Plain.run fuel settings program port journal = none) ∨
    ∃ c c', run fuel settings program terminal journal = some c ∧
      Plain.run fuel settings program port journal = some c' ∧ c.Rendered R c' := by
  obtain ⟨s, p, hs, hp, h⟩ | ⟨e, journal', -, hp, hrun⟩ :=
    Program.rendered_session? hport settings program journal
  · rw [run_of_session? hs, run_of_prepare hp]
    obtain ⟨hnone, hnone'⟩ | ⟨ending, t, q, ht, hq, hend⟩ :=
      Session.rendered_runFor sim settings.sorted h fuel
    · rw [hnone, hnone']
      exact .inl ⟨rfl, rfl⟩
    · rw [ht, hq]
      exact .inr ⟨_, _, rfl, rfl, rendered_conclusion sim hend _ ending⟩
  · have hplain : Plain.run fuel settings program port journal = some
        { outcome := .ok (Plain.unparsed settings.options e), port, journal := journal' } := by
      simp only [Plain.run, hp]
    have houtcome : (.ok (Plain.unparsed settings.options e) : Except Break Plain.Result) =
        .ok (unparsed settings.options e).plain := by
      rw [plain_unparsed]
    exact .inr ⟨_, _, hrun fuel, hplain, houtcome, hport, rfl⟩

/-- As long as the run on words has not ended, the plain run has not. -/
theorem rendered_of_none {fuel : Nat} {settings : Settings} {program : Program}
    {journal : Journal} (h : run fuel settings program terminal journal = none) :
    Plain.run fuel settings program port journal = none := by
  obtain ⟨-, hnone⟩ | ⟨c, -, hc, -⟩ := rendered_run sim hport fuel settings program journal
  · exact hnone
  · rw [h] at hc
    cases hc

/-- What a plain run has come to, the run on words comes to, -/
theorem rendered_of_plain {fuel : Nat} {settings : Settings} {program : Program}
    {journal : Journal} {c' : Plain.Conclusion σ}
    (h : Plain.run fuel settings program port journal = some c') :
    ∃ c, run fuel settings program terminal journal = some c ∧ c.Rendered R c' := by
  obtain ⟨-, hnone⟩ | ⟨c, c₁, hc, hc₁, hsame⟩ :=
    rendered_run sim hport fuel settings program journal
  · rw [h] at hnone
    cases hnone
  · cases h.symm.trans hc₁
    exact ⟨c, hc, hsame⟩

/-- and the other way round. -/
theorem rendered_of_run {fuel : Nat} {settings : Settings} {program : Program}
    {journal : Journal} {c : Conclusion}
    (h : run fuel settings program terminal journal = some c) :
    ∃ c', Plain.run fuel settings program port journal = some c' ∧ c.Rendered R c' := by
  obtain ⟨hnone, -⟩ | ⟨c₁, c', hc, hc', hsame⟩ :=
    rendered_run sim hport fuel settings program journal
  · rw [h] at hnone
    cases hnone
  · cases h.symm.trans hc
    exact ⟨c', hc', hsame⟩

end Programs

/-- Runs on buffers do the same, and nothing escapes from them. -/
theorem rendered_runOn (codes : List Nat) (fuel : Nat) (settings : Settings) (program : Program)
    (journal : Journal) :
    (runOn codes fuel settings program journal = none ∧
      Plain.runOn codes fuel settings program journal = none) ∨
    ∃ c c' r, runOn codes fuel settings program journal = some c ∧
      Plain.runOn codes fuel settings program journal = some c' ∧ c.result = some r ∧
      c'.outcome = .ok r.plain := by
  have hbuffer := Port.shows_buffer codes settings.options.strictInput
  obtain hnone | ⟨c, c', hc, hc', h⟩ :=
    rendered_run Port.simulation hbuffer fuel settings program journal
  · exact .inl hnone
  · obtain ⟨r, hr⟩ := result_of_runOn hc
    have houtcome := h.outcome
    rw [hr] at houtcome
    exact .inr ⟨c, c', r, hc, hc', hr, houtcome⟩

end LittleComputer
