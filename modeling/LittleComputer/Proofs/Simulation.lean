import LittleComputer.Proofs.Runs

/-!
# Runs on related terminals

The machine sees of its terminal what reads give and which codes are remembered, and nothing else.
If two terminals agree in that, so do the machines that use them, for as long as nothing is lost:
`Lost` holds of a terminal from the moment on at which the other one could be told from it.

* `Terminal.Simulation` — a relation of terminals that agree until one of them is lost.
* `Exec.alike_of_built`, `Exec.alike_cycle` — then **actions and cycles agree**: they give the same
  and leave related machines.
* `Session.Loses` — the next turn loses the terminal.
* `Session.turn_alike`, `Session.after_alike`, `Session.runFor_alike` — **turns and runs agree** as
  long as the terminal is not lost.
* `run_alike`, `results_alike`, `results_of_run_alike` — so do runs of programs, and so do their
  results.
-/

namespace LittleComputer

/-- Terminals that stand in the relation `R` agree until they are lost. -/
structure Terminal.Simulation (R : Terminal → Terminal → Prop) (Lost : Terminal → Prop) :
    Prop where
  /-- They remember the same codes. -/
  codes : ∀ {t t'}, R t t' → t.lastIn = t'.lastIn ∧ t.lastOut = t'.lastOut
  /-- A read loses the terminal, or it gives the same. -/
  read : ∀ {t t'}, R t t' → Lost t.read.2 ∨ t.read.1 = t'.read.1 ∧ R t.read.2 t'.read.2
  /-- Writing keeps them related. -/
  writeAll : ∀ {t t'} codes, R t t' → R (t.writeAll codes) (t'.writeAll codes)
  /-- So does pushing out output. -/
  flush : ∀ {t t'}, R t t' → R t.flush t'.flush
  /-- So does forgetting codes. -/
  resetCodes : ∀ {t t'}, R t t' → R t.resetCodes t'.resetCodes
  /-- What is lost stays lost. -/
  lost : Machine.Closed fun m => Lost m.terminal

/-- Where terminals agree for good, nothing is ever lost. -/
theorem Machine.closed_false : Closed fun _ => False where
  setRegister _ _ h := h
  setResult _ _ h := h
  store _ _ h := h
  read h := h
  writeAll _ h := h
  flush h := h
  resetCodes h := h
  move _ _ h := h
  setStatus _ h := h

/-- Machines that differ at most in their terminals, which are related. -/
structure Machine.Alike (R : Terminal → Terminal → Prop) (m m' : Machine) : Prop where
  /-- They have the same processor. -/
  processor : m.processor = m'.processor
  /-- They have the same memory. -/
  memory : m.memory = m'.memory
  /-- Their terminals are related. -/
  terminal : R m.terminal m'.terminal

/-! ## Actions and cycles -/

namespace Exec

variable {α β : Type} {R : Terminal → Terminal → Prop} {Lost : Terminal → Prop}

/-- The same outcome, on machines that are alike. -/
inductive Alike (R : Terminal → Terminal → Prop) :
    EStateM.Result Stop Machine α → EStateM.Result Stop Machine α → Prop
  /-- The same value. -/
  | ok (a : α) {m m' : Machine} (h : m.Alike R m') : Alike R (.ok a m) (.ok a m')
  /-- The same stop. -/
  | error (e : Stop) {m m' : Machine} (h : m.Alike R m') : Alike R (.error e m) (.error e m')

/-- `x` gives the same on machines that are alike, unless it loses the terminal. -/
def Agrees (R : Terminal → Terminal → Prop) (Lost : Terminal → Prop) (x : Exec α) : Prop :=
  ∀ m m', m.Alike R m' → Lost (left x m).terminal ∨ Alike R (x m) (x m')

/-- What is left is alike. -/
theorem Alike.left {x y : Exec α} {m m' : Machine} (h : Alike R (x m) (y m')) :
    (left x m).Alike R (left y m') := by
  unfold Exec.left
  generalize x m = result at h ⊢
  generalize y m' = result' at h ⊢
  cases h with
  | ok _ hm => exact hm
  | error _ hm => exact hm

end Exec

/-- Reads of memory give the same, if reads of the terminals do where it comes to these. -/
theorem Machine.Alike.load {R : Terminal → Terminal → Prop} {m m' : Machine} (h : m.Alike R m')
    {address : Int}
    (hread : Word.ofInt address = Memory.keyboardStatus →
      m.terminal.read.1 = m'.terminal.read.1 ∧ R m.terminal.read.2 m'.terminal.read.2) :
    Exec.Alike R (Exec.load address m) (Exec.load address m') := by
  by_cases hk : Word.ofInt address = Memory.keyboardStatus
  · obtain ⟨hsame, hrelated⟩ := hread hk
    have hready : m.markReady.memory = m'.markReady.memory :=
      congrArg (·.poke Memory.keyboardStatus Memory.keyboardReady) h.memory
    rcases hm : m.terminal.read with ⟨result, t⟩
    rcases hm' : m'.terminal.read with ⟨result', t'⟩
    rw [hm, hm'] at hsame hrelated
    dsimp only at hsame hrelated
    subst hsame
    cases result with
    | ok code =>
        rw [Exec.load_keyboard_ok m hk hm, Exec.load_keyboard_ok m' hk hm']
        refine .ok _ ⟨h.processor, ?_, hrelated⟩
        exact congrArg (·.poke Memory.keyboardData (BitVec.ofNat 16 code)) hready
    | error e =>
        rw [Exec.load_keyboard_error m hk hm, Exec.load_keyboard_error m' hk hm']
        exact .error e ⟨h.processor, hready, hrelated⟩
  · rw [Exec.load_of_ne m hk, Exec.load_of_ne m' hk, h.memory]
    exact .ok _ h

namespace Exec

variable {α β : Type} {R : Terminal → Terminal → Prop} {Lost : Terminal → Prop}

/-- Sequences agree, if what is lost in the first half stays lost in the second. -/
theorem Agrees.bind {x : Exec α} {f : α → Exec β} (hx : Agrees R Lost x)
    (hf : ∀ a, Agrees R Lost (f a)) (hlost : ∀ a, Keeps (fun m => Lost m.terminal) (f a)) :
    Agrees R Lost (x >>= f) := by
  intro m m' h
  have hfirst := hx m m' h
  cases hm : x m with
  | ok a m₁ =>
      rw [left_bind_of_ok hm, bind_apply, bind_apply, hm]
      rw [left_of_ok hm, hm] at hfirst
      obtain hfirst | hfirst := hfirst
      · exact .inl (hlost a m₁ hfirst)
      · generalize x m' = result at hfirst
        cases hfirst with
        | ok _ h₁ => exact hf a _ _ h₁
  | error e m₁ =>
      rw [left_bind_of_error hm, bind_apply, bind_apply, hm]
      rw [left_of_error hm, hm] at hfirst
      refine hfirst.imp id fun hfirst => ?_
      generalize x m' = result at hfirst ⊢
      cases hfirst with
      | error _ h₁ => exact .error e h₁

section Simulation

variable (sim : Terminal.Simulation R Lost)

include sim

theorem agrees_readChar : Agrees R Lost readChar := by
  intro m m' h
  have hread := sim.read h.terminal
  rw [left_readChar]
  refine hread.imp id fun ⟨hsame, hrelated⟩ => ?_
  rw [readChar_apply, readChar_apply]
  rcases hm : m.terminal.read with ⟨result, t⟩
  rcases hm' : m'.terminal.read with ⟨result', t'⟩
  rw [hm, hm'] at hsame hrelated
  dsimp only at hsame hrelated
  subst hsame
  cases result with
  | ok code => exact .ok code ⟨h.processor, h.memory, hrelated⟩
  | error e => exact .error e ⟨h.processor, h.memory, hrelated⟩

theorem agrees_load (address : Int) : Agrees R Lost (load address) := by
  intro m m' h
  by_cases hk : Word.ofInt address = Memory.keyboardStatus
  · rw [terminal_left_load m hk]
    exact (sim.read h.terminal).imp id fun hread => h.load fun _ => hread
  · exact .inr (h.load fun hk' => absurd hk' hk)

/-- **Whatever instructions are made of agrees.** -/
theorem alike_of_built {x : Exec α} (hx : Built x) : Agrees R Lost x := by
  induction hx with
  | pure a => exact fun _ _ h => .inr (.ok a h)
  | bind _ hf ihx ihf => exact ihx.bind ihf fun a => .of_built sim.lost (hf a)
  | fail cause => exact fun _ _ h => .inr (.error _ h)
  | look f =>
      intro m m' h
      right
      rw [look, look, h.processor]
      exact .ok _ h
  | string address =>
      intro m m' h
      right
      rw [string_apply, string_apply, h.memory]
      cases m'.memory.string? address with
      | none => exact .error _ h
      | some words => exact .ok words h
  | setRegister r w =>
      intro m m' h
      exact .inr (.ok () ⟨congrArg (·.setRegister r w) h.processor, h.memory, h.terminal⟩)
  | setResult r w =>
      intro m m' h
      exact .inr (.ok () ⟨congrArg (fun p => (p.setRegister r w).setFlags r) h.processor, h.memory,
        h.terminal⟩)
  | move f =>
      intro m m' h
      exact .inr (.ok () ⟨congrArg (fun p => { p with pc := (f p).1, ir := (f p).2 }) h.processor,
        h.memory, h.terminal⟩)
  | halt =>
      intro m m' h
      exact .inr (.ok () ⟨congrArg (fun p => { p with status := .halted }) h.processor, h.memory,
        h.terminal⟩)
  | load address => exact agrees_load sim address
  | store address w =>
      intro m m' h
      exact .inr (.ok () ⟨h.processor, congrArg (·.poke (Word.ofInt address) w) h.memory,
        h.terminal⟩)
  | readChar => exact agrees_readChar sim
  | write codes =>
      exact fun _ _ h => .inr (.ok () ⟨h.processor, h.memory, sim.writeAll codes h.terminal⟩)
  | flush => exact fun _ _ h => .inr (.ok () ⟨h.processor, h.memory, sim.flush h.terminal⟩)
  | resetCodes =>
      exact fun _ _ h => .inr (.ok () ⟨h.processor, h.memory, sim.resetCodes h.terminal⟩)

/-- **Cycles agree.** -/
theorem alike_cycle (instructions : InstructionSet) : Agrees R Lost (cycle instructions) :=
  alike_of_built sim (built_cycle instructions)

end Simulation

end Exec

/-! ## Turns and runs -/

/-- Sessions that are alike: they differ at most in their terminals, which are related. -/
structure Session.Alike (R : Terminal → Terminal → Prop) (s s' : Session) : Prop where
  /-- Their machines are alike. -/
  machine : s.machine.Alike R s'.machine
  /-- They have completed the same number of steps. -/
  steps : s.steps = s'.steps
  /-- They have the same rows. -/
  trace : s.trace = s'.trace
  /-- They have reported the same. -/
  journal : s.journal = s'.journal

/-- Sessions that are alike are so when they are closed, if pushing out output keeps terminals
related. -/
theorem Session.Alike.close {R : Terminal → Terminal → Prop} {s s' : Session} (h : s.Alike R s')
    (hflush : ∀ {t t' : Terminal}, R t t' → R t.flush t'.flush) (ending : Ending) :
    (s.close ending).Alike R (s'.close ending) where
  machine := ⟨h.machine.processor, h.machine.memory, hflush h.machine.terminal⟩
  steps := h.steps
  trace := h.trace
  journal := by
    cases ending with
    | halted => simp only [Session.close, h.journal, h.steps]
    | _ => exact h.journal

/-- The same turn, of sessions that are alike. -/
inductive Turn.Alike (R : Terminal → Terminal → Prop) : Turn → Turn → Prop
  /-- An instruction has been completed. -/
  | next {t t' : Session} (h : t.Alike R t') : Alike R (.next t) (.next t')
  /-- The run is over. -/
  | ended (ending : Ending) {t t' : Session} (h : t.Alike R t') :
      Alike R (.over ending t) (.over ending t')
  /-- The turn never ends. -/
  | endless : Alike R .endless .endless

namespace Session

variable {R : Terminal → Terminal → Prop} {Lost : Terminal → Prop} {settings : Settings}
  {s s' : Session}

/-- The next turn of the session loses the terminal. -/
def Loses (settings : Settings) (Lost : Terminal → Prop) (s : Session) : Prop :=
  s.machine.processor.running = true ∧ settings.options.exhausted? s.steps = none ∧
    Lost (Exec.left (Exec.cycle settings.instructions) s.machine).terminal

/-- A completed turn loses the terminal exactly if it is lost afterwards. -/
theorem loses_iff_of_next {t : Session} (hturn : s.turn settings = .next t) :
    s.Loses settings Lost ↔ Lost t.machine.terminal := by
  obtain ⟨hrunning, hlimit, w, m, hcycle, rfl⟩ := turn_eq_next_iff.1 hturn
  rw [Loses, Exec.left_of_ok hcycle]
  exact ⟨fun h => h.2.2, fun h => ⟨hrunning, hlimit, h⟩⟩

section Simulation

variable (sim : Terminal.Simulation R Lost)

include sim

theorem advance_alike {m m' : Machine} (hm : m.Alike R m') (o : Options) (steps : Nat)
    (trace : Array TraceRow) (journal : Journal) (address word : Word) :
    (advance o ⟨m, steps, trace, journal⟩ address word).Alike R
      (advance o ⟨m', steps, trace, journal⟩ address word) where
  machine := hm
  steps := rfl
  trace := by
    have hrow : TraceRow.after m (steps + 1) address word o.watch o.traceTerminal =
        TraceRow.after m' (steps + 1) address word o.watch o.traceTerminal := by
      obtain ⟨hin, hout⟩ := sim.codes hm.terminal
      simp only [TraceRow.after, hm.processor, hm.memory, hin, hout]
    simp only [advance, hrow]
  journal := rfl

/-- **Turns agree.** -/
theorem turn_alike (h : s.Alike R s') (hkept : ¬ s.Loses settings Lost) :
    Turn.Alike R (s.turn settings) (s'.turn settings) := by
  obtain ⟨m, steps, trace, journal⟩ := s
  obtain ⟨m', steps', trace', journal'⟩ := s'
  obtain ⟨hm, hsteps, htrace, hjournal⟩ := h
  dsimp only at hm hsteps htrace hjournal
  subst hsteps htrace hjournal
  have hfailed : ∀ {v v' : Machine} (report : Report), v.Alike R v' →
      Turn.Alike R (fail ⟨v, steps, trace, journal⟩ report)
        (fail ⟨v', steps, trace, journal⟩ report) := by
    intro v v' report hv
    have hprocessor := congrArg (fun p => { p with status := .faulted }) hv.processor
    exact .ended _ ⟨⟨hprocessor, hv.memory, hv.terminal⟩, rfl, rfl, rfl⟩
  simp only [turn, ← hm.processor]
  split
  · rename_i hrunning
    cases hlimit : settings.options.exhausted? steps with
    | some limit => exact hfailed _ hm
    | none =>
        have hcycle := (Exec.alike_cycle sim settings.instructions m m' hm).resolve_left
          fun hlost => hkept ⟨hrunning, hlimit, hlost⟩
        dsimp only
        generalize Exec.cycle settings.instructions m = result at hcycle ⊢
        generalize Exec.cycle settings.instructions m' = result' at hcycle ⊢
        cases hcycle with
        | ok w hv => exact .next (advance_alike sim hv _ _ _ _ _ _)
        | error e hv =>
            cases e with
            | fault cause =>
                dsimp only
                rw [← hv.processor]
                exact hfailed _ hv
            | interrupted => exact .ended _ ⟨hv, rfl, rfl, rfl⟩
            | endless => exact .endless
  · exact .ended _ ⟨hm, rfl, rfl, rfl⟩

/-- **Sequences of turns agree** as long as the terminal is not lost. -/
theorem after_alike {n : Nat} {t : Session} (h : s.Alike R s')
    (ht : after settings n s = some t) (hkept : ¬ Lost t.machine.terminal) :
    ∃ t', after settings n s' = some t' ∧ t.Alike R t' := by
  induction n generalizing t with
  | zero =>
      cases ht
      exact ⟨s', rfl, h⟩
  | succ n ih =>
      obtain ⟨u, hu, hturn⟩ := after_succ_eq_some_iff'.1 ht
      obtain ⟨u', hu', halike⟩ := ih hu fun hlost =>
        hkept (closed_of_next sim.lost hturn hlost)
      have hsame := turn_alike sim halike fun hloses => hkept ((loses_iff_of_next hturn).1 hloses)
      rw [hturn] at hsame
      generalize hturn' : u'.turn settings = turn' at hsame
      cases hsame with
      | next ht' => exact ⟨_, after_succ_eq_some_iff'.2 ⟨u', hu', hturn'⟩, ht'⟩

/-- **Runs agree** if no turn loses the terminal. -/
theorem runFor_alike (h : s.Alike R s')
    (hkept : ∀ n t, after settings n s = some t → ¬ t.Loses settings Lost) (fuel : Nat) :
    (runFor settings fuel s = none ∧ runFor settings fuel s' = none) ∨
      ∃ ending t t', runFor settings fuel s = some (ending, t) ∧
        runFor settings fuel s' = some (ending, t') ∧ t.Alike R t' := by
  induction fuel generalizing s s' with
  | zero => exact .inl ⟨rfl, rfl⟩
  | succ fuel ih =>
      have hsame := turn_alike sim h (hkept 0 s rfl)
      rw [runFor, runFor]
      generalize hturn : s.turn settings = turn at hsame ⊢
      generalize s'.turn settings = turn' at hsame ⊢
      cases hsame with
      | @next u u' hu =>
          exact ih hu fun n t ht => hkept (n + 1) t (after_succ_eq_some_iff.2 ⟨u, hturn, ht⟩)
      | ended ending ht => exact .inr ⟨ending, _, _, rfl, rfl, ht.close sim.flush ending⟩
      | endless => exact .inl ⟨rfl, rfl⟩

end Simulation

end Session

/-! ## Programs -/

section Programs

variable {R : Terminal → Terminal → Prop} {Lost : Terminal → Prop} {settings : Settings}
  {program : Program} {terminal terminal' : Terminal} {journal : Journal}

/-- Programs start alike on related terminals. -/
theorem Program.session?_alike {options : Options} {s : Session} (h : R terminal terminal')
    (hs : program.session? options terminal journal = some s) :
    ∃ s', program.session? options terminal' journal = some s' ∧ s.Alike R s' := by
  cases program with
  | image image =>
      cases hs
      exact ⟨_, rfl, ⟨⟨rfl, rfl, h⟩, rfl, rfl, rfl⟩⟩
  | bytes data =>
      rcases hread : Image.read data journal with ⟨loaded, journal'⟩
      simp only [session?, hread] at hs ⊢
      cases loaded with
      | ok image =>
          cases hs
          exact ⟨_, rfl, ⟨⟨rfl, rfl, h⟩, rfl, rfl, rfl⟩⟩
      | error e => cases hs

/-- Reports on sessions that are alike differ at most in the output. -/
theorem Session.Alike.report {t t' : Session} (h : t.Alike R t') (options : Options)
    (error : Option Report) :
    result?.report options t error =
      { result?.report options t' error with output := t.machine.terminal.output } := by
  simp only [result?.report, h.steps, h.machine.processor, h.trace]

/-- **Runs of programs agree** on related terminals, if no turn loses the first of them. -/
theorem run_alike (sim : Terminal.Simulation R Lost) {s : Session} (h : R terminal terminal')
    (hs : program.session? settings.sorted.options terminal journal = some s)
    (hkept : ∀ n t, s.after settings.sorted n = some t → ¬ t.Loses settings.sorted Lost)
    (fuel : Nat) :
    (run fuel settings program terminal journal = none ∧
      run fuel settings program terminal' journal = none) ∨
    ∃ ending, ∃ t t' : Session, run fuel settings program terminal journal =
        some (t.conclusion settings.sorted.options ending) ∧
      run fuel settings program terminal' journal =
        some (t'.conclusion settings.sorted.options ending) ∧ t.Alike R t' := by
  obtain ⟨s', hs', halike⟩ := Program.session?_alike h hs
  rw [run_of_session? hs, run_of_session? hs']
  obtain ⟨hnone, hnone'⟩ | ⟨ending, t, t', ht, ht', hend⟩ :=
    Session.runFor_alike sim halike hkept fuel
  · rw [hnone, hnone']
    exact .inl ⟨rfl, rfl⟩
  · rw [ht, ht']
    exact .inr ⟨ending, t, t', rfl, rfl, hend⟩

/-- If they cannot be interrupted, their results are the same, up to the output that the terminals
can show. -/
theorem results_alike (sim : Terminal.Simulation R Lost) {s : Session} (h : R terminal terminal')
    (hs : program.session? settings.sorted.options terminal journal = some s)
    (hkept : ∀ n t, s.after settings.sorted n = some t → ¬ t.Loses settings.sorted Lost)
    (hend : terminal.atEnd ≠ .interrupt) (fuel : Nat) :
    (run fuel settings program terminal journal = none ∧
      run fuel settings program terminal' journal = none) ∨
    ∃ c c' r r', run fuel settings program terminal journal = some c ∧
      run fuel settings program terminal' journal = some c' ∧
      c.result = some r ∧ c'.result = some r' ∧
      r = { r' with output := c.terminal.output } ∧ r'.output = c'.terminal.output ∧
      R c.terminal c'.terminal ∧ c.journal = c'.journal := by
  refine (run_alike sim h hs hkept fuel).imp id fun ⟨ending, t, t', hc, hc', halike⟩ => ?_
  obtain ⟨r, hr⟩ := result_of_run hc hend
  obtain ⟨rfl, -⟩ | ⟨report, rfl, -⟩ := Session.result?_cases hr
  · exact ⟨_, _, _, _, hc, hc', rfl, rfl, halike.report _ none, rfl, halike.machine.terminal,
      halike.journal⟩
  · exact ⟨_, _, _, _, hc, hc', rfl, rfl, halike.report _ (some report), rfl,
      halike.machine.terminal, halike.journal⟩

/-- What the one run has come to, the other comes to as well. -/
theorem results_of_run_alike (sim : Terminal.Simulation R Lost) {s : Session}
    (h : R terminal terminal')
    (hs : program.session? settings.sorted.options terminal journal = some s)
    (hkept : ∀ n t, s.after settings.sorted n = some t → ¬ t.Loses settings.sorted Lost)
    (hend : terminal.atEnd ≠ .interrupt) {fuel : Nat} {c : Conclusion}
    (hrun : run fuel settings program terminal journal = some c) :
    ∃ c' r r', run fuel settings program terminal' journal = some c' ∧
      c.result = some r ∧ c'.result = some r' ∧
      r = { r' with output := c.terminal.output } ∧ r'.output = c'.terminal.output ∧
      R c.terminal c'.terminal ∧ c.journal = c'.journal := by
  obtain ⟨hnone, -⟩ | ⟨c₁, c', r, r', hc₁, hrest⟩ := results_alike sim h hs hkept hend fuel
  · rw [hrun] at hnone
    cases hnone
  · cases hrun.symm.trans hc₁
    exact ⟨c', r, r', hrest⟩

end Programs

end LittleComputer
