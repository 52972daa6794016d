import LittleComputer.Proofs.Images
import LittleComputer.Proofs.Rows

/-!
# The step limit

A limit bounds how many instructions a run completes.  It does not look into instructions, and it
does nothing else.

* `Program.MeetsEndlessString` — the program comes to write a string from a memory without a zero
  cell, before it has completed so many instructions.
* `run_bounded` — **termination**: a bounded run comes to an end, unless it meets an endless string
  within its limit; then it never does.
* `run_endless_eq_none` — there is a program that meets one with its first instruction.
* `run_truncated` — **truncation**: within the limit a run is the unlimited one, and at the limit it
  is what the unlimited one has come to by then, stopped.
-/

namespace LittleComputer

/-! ## Reaching the limit -/

/-- The settings with another limit. -/
def Settings.withLimit (settings : Settings) (limit : Option Int) : Settings :=
  { settings with options := { settings.options with maxSteps := limit } }

section Limits

variable {settings : Settings} {n : Int}

/-- The order of the watch list and the limit have nothing to do with one another. -/
theorem sorted_withLimit (limit : Option Int) :
    (settings.withLimit limit).sorted = settings.sorted.withLimit limit := rfl

theorem exhausted?_none (steps : Nat) :
    (settings.withLimit none).options.exhausted? steps = none := rfl

theorem exhausted?_eq_none_iff {steps : Nat} :
    (settings.withLimit (some n)).options.exhausted? steps = none ↔ steps < n.toNat := by
  show (if n ≤ steps then some n else none) = none ↔ _
  split
  · simp only [reduceCtorEq, false_iff]
    omega
  · simp only [true_iff]
    omega

theorem exhausted?_of_le {steps : Nat} (h : n.toNat ≤ steps) :
    (settings.withLimit (some n)).options.exhausted? steps = some n := by
  show (if n ≤ steps then some n else none) = _
  rw [if_pos (by omega)]

/-- The first session of a program does not depend on the limit. -/
theorem session?_withLimit (limit : Option Int) (program : Program) (terminal : Terminal)
    (journal : Journal) :
    program.session? (settings.withLimit limit).sorted.options terminal journal =
      program.session? settings.sorted.options terminal journal := by
  cases program <;> rfl

end Limits

/-! ## Bounded runs -/

/-- `Session.MeetsEndlessString settings n s` : from `s` on, before `n` instructions have been
completed, a string is to be written from a memory without a zero cell. -/
def Session.MeetsEndlessString (settings : Settings) (n : Nat) (s : Session) : Prop :=
  ∃ k t, k < n ∧ s.after settings k = some t ∧ t.machine.processor.running = true ∧
    settings.instructions .trap = true ∧ t.machine.BeforeEndlessString

/-- The program is an image whose run meets an endless string before it has completed `n`
instructions. -/
def Program.MeetsEndlessString (program : Program) (settings : Settings) (terminal : Terminal)
    (journal : Journal) (n : Nat) : Prop :=
  ∃ s, program.session? settings.sorted.options terminal journal = some s ∧
    s.MeetsEndlessString settings.sorted n

namespace Session

variable {settings : Settings} {n : Int} {s t : Session}

/-- A turn never ends exactly before an endless string. -/
theorem turn_eq_endless_iff_string :
    s.turn settings = .endless ↔
      s.machine.processor.running = true ∧ settings.options.exhausted? s.steps = none ∧
        settings.instructions .trap = true ∧ s.machine.BeforeEndlessString := by
  rw [turn_eq_endless_iff, Exec.cycle_endless_iff]

/-- No more turns are completed than the limit allows. -/
theorem after_le_limit {k : Nat} (hs : s.steps = 0)
    (h : after (settings.withLimit (some n)) k s = some t) : k ≤ n.toNat := by
  refine Nat.le_of_not_lt fun hlt => ?_
  obtain ⟨u, v, hu, hturn⟩ := turn_of_after_lt h hlt
  obtain ⟨-, hlimit, -⟩ := turn_eq_next_iff.1 hturn
  rw [exhausted?_eq_none_iff, steps_after hu, hs] at hlimit
  omega

/-- A session that meets an endless string comes to no end. -/
theorem runFor_of_meets (hs : s.steps = 0)
    (h : s.MeetsEndlessString (settings.withLimit (some n)) n.toNat) (fuel : Nat) :
    runFor (settings.withLimit (some n)) fuel s = none := by
  obtain ⟨k, t, hlt, hafter, hrunning, htrap, hstring⟩ := h
  have hturn : t.turn (settings.withLimit (some n)) = .endless := by
    refine turn_eq_endless_iff_string.2 ⟨hrunning, ?_, htrap, hstring⟩
    rw [exhausted?_eq_none_iff, steps_after hafter, hs]
    omega
  rw [runFor_eq_none_iff]
  by_cases hfuel : k < fuel
  · exact .inr ⟨k, t, hfuel, hafter, hturn⟩
  · -- the fuel is used up before
    left
    rcases Nat.lt_or_eq_of_le (Nat.le_of_not_lt hfuel) with hlt' | rfl
    · obtain ⟨u, v, hu, -⟩ := turn_of_after_lt hafter hlt'
      exact ⟨u, hu⟩
    · exact ⟨t, hafter⟩

/-- Any other session comes to its end one turn after its limit, at the latest. -/
theorem runFor_of_not_meets (hs : s.steps = 0)
    (h : ¬ s.MeetsEndlessString (settings.withLimit (some n)) n.toNat) :
    ∃ r, runFor (settings.withLimit (some n)) (n.toNat + 1) s = some r := by
  rw [← Option.ne_none_iff_exists']
  intro hnone
  obtain ⟨t, hafter⟩ | ⟨k, t, -, hafter, hturn⟩ := runFor_eq_none_iff.1 hnone
  · exact absurd (after_le_limit hs hafter) (by omega)
  · obtain ⟨hrunning, hlimit, htrap, hstring⟩ := turn_eq_endless_iff_string.1 hturn
    rw [exhausted?_eq_none_iff, steps_after hafter, hs] at hlimit
    exact h ⟨k, t, by omega, hafter, hrunning, htrap, hstring⟩

end Session

section Programs

variable {settings : Settings} {program : Program} {terminal : Terminal} {journal : Journal}
  {n : Int}

/-- A bounded run that meets an endless string never ends. -/
theorem run_of_meets
    (h : program.MeetsEndlessString (settings.withLimit (some n)) terminal journal n.toNat)
    (fuel : Nat) : run fuel (settings.withLimit (some n)) program terminal journal = none := by
  obtain ⟨s, hs, hmeets⟩ := h
  rw [run_of_session? hs, Option.map_eq_none_iff]
  rw [sorted_withLimit] at hmeets ⊢
  exact Session.runFor_of_meets (Session.steps_of_session? hs) hmeets fuel

/-- Any other bounded run ends, one turn after its limit at the latest. -/
theorem run_of_not_meets
    (h : ¬ program.MeetsEndlessString (settings.withLimit (some n)) terminal journal n.toNat) :
    ∃ c, run (n.toNat + 1) (settings.withLimit (some n)) program terminal journal = some c := by
  cases hs : program.session? (settings.withLimit (some n)).sorted.options terminal journal with
  | none =>
      obtain ⟨e, journal', hrun⟩ := run_of_session?_eq_none hs
      exact ⟨_, hrun _ _⟩
  | some s =>
      have hmeets : ¬ s.MeetsEndlessString (settings.sorted.withLimit (some n)) n.toNat :=
        fun hmeets => h ⟨s, hs, hmeets⟩
      obtain ⟨r, hr⟩ := Session.runFor_of_not_meets (Session.steps_of_session? hs) hmeets
      rw [run_of_session? hs, sorted_withLimit, hr]
      exact ⟨_, rfl⟩

/-- No result of a bounded run tells of more steps than the limit allows. -/
theorem steps_le_of_run {fuel : Nat} {c : Conclusion} {r : Result}
    (h : run fuel (settings.withLimit (some n)) program terminal journal = some c)
    (hr : c.result = some r) : r.steps ≤ n.toNat := by
  obtain ⟨e, journal', rfl⟩ | ⟨image, journal', k, t, ending, u, hafter, hends, rfl⟩ := run_cases h
  · cases hr
    exact Nat.zero_le _
  · rw [sorted_withLimit] at hafter
    have hk : k ≤ n.toNat := Session.after_le_limit rfl hafter
    have hu : u.steps = k := by
      rw [hends.steps_eq, Session.steps_after hafter]
      exact Nat.zero_add k
    obtain ⟨-, rfl⟩ | ⟨report, -, rfl⟩ := Session.result?_cases hr
    · exact Nat.le_trans (Nat.le_of_eq hu) hk
    · exact Nat.le_trans (Nat.le_of_eq hu) hk

/-- **Termination.**  A bounded run comes to an end after at most as many instructions as its limit
allows, with a result if the terminal cannot be interrupted, except where it meets an endless string
before; and there it never ends. -/
theorem run_bounded (settings : Settings) (program : Program) (terminal : Terminal)
    (journal : Journal) (n : Int) :
    (¬ program.MeetsEndlessString (settings.withLimit (some n)) terminal journal n.toNat ↔
      ∃ c, run (n.toNat + 1) (settings.withLimit (some n)) program terminal journal = some c ∧
        (terminal.atEnd ≠ .interrupt → ∃ r, c.result = some r ∧ r.steps ≤ n.toNat)) ∧
    (program.MeetsEndlessString (settings.withLimit (some n)) terminal journal n.toNat ↔
      ∀ fuel, run fuel (settings.withLimit (some n)) program terminal journal = none) := by
  have hends : ¬ program.MeetsEndlessString (settings.withLimit (some n)) terminal journal
      n.toNat → ∃ c,
        run (n.toNat + 1) (settings.withLimit (some n)) program terminal journal = some c ∧
        (terminal.atEnd ≠ .interrupt → ∃ r, c.result = some r ∧ r.steps ≤ n.toNat) := by
    intro h
    obtain ⟨c, hc⟩ := run_of_not_meets h
    refine ⟨c, hc, fun hend => ?_⟩
    obtain ⟨r, hr⟩ := result_of_run hc hend
    exact ⟨r, hr, steps_le_of_run hc hr⟩
  refine ⟨⟨hends, ?_⟩, ⟨run_of_meets, ?_⟩⟩
  · rintro ⟨c, hc, -⟩ h
    rw [run_of_meets h] at hc
    cases hc
  · intro h
    refine Classical.not_not.1 fun hmeets => ?_
    obtain ⟨c, hc, -⟩ := hends hmeets
    rw [h] at hc
    cases hc

/-- A memory full of string traps is no place to run one. -/
theorem beforeEndlessString_of_filled {m : Machine} (hpc : m.processor.pc ≠ Memory.keyboardStatus)
    (h : ∀ a, m.memory.peek a = 0xF022) : m.BeforeEndlessString where
  ordinary := hpc
  trap := by
    rw [Machine.current, h]
    rfl
  vector := by
    rw [Machine.current, h]
    exact .inl rfl
  noZero a := by
    rw [h]
    decide

/-- Where an image fills the whole address space, nothing else is in memory at the start. -/
theorem peek_start_replicate (options : Options) (word a : Word) (terminal : Terminal)
    (journal : Journal) :
    (Session.start options ⟨0, List.replicate wordCount word.toNat⟩ terminal
      journal).machine.memory.peek a = word := by
  rw [Session.memory_start, Memory.peek_load_replicate, Word.ofInt_toNat]

/-- **Not every bounded run ends.**  Bytes that fill the whole address space with string traps are
an image whose run never ends on any terminal, though only one instruction may be completed. -/
theorem run_endless_eq_none :
    ¬ ∃ terminal fuel c, run fuel { options := { maxSteps := some 1 } }
      (.bytes (Image.encode 0 (List.replicate wordCount 0xF022))) terminal ⟨.warning, #[]⟩ =
      some c := by
  rintro ⟨terminal, fuel, c, hc⟩
  obtain ⟨journal', hread⟩ := Image.read_encode_replicate 0xF022 ⟨.warning, #[]⟩
  have hmeets : Program.MeetsEndlessString
      (.bytes (Image.encode 0 (List.replicate wordCount 0xF022)))
      (Settings.withLimit {} (some 1)) terminal ⟨.warning, #[]⟩ 1 := by
    refine ⟨.start {} ⟨0, List.replicate wordCount (0xF022 : Word).toNat⟩ terminal journal', ?_,
      0, _, Nat.zero_lt_one, rfl, rfl, rfl, beforeEndlessString_of_filled ?_ ?_⟩
    · rw [Program.session?, hread]
      rfl
    · show Word.ofInt 0x3000 ≠ _
      decide
    · exact fun a => peek_start_replicate {} 0xF022 a _ _
  have hnone := run_of_meets hmeets fuel
  exact absurd (hnone.symm.trans hc) (by simp)

end Programs

/-! ## Runs that differ only in their limit -/

namespace Session

variable {settings : Settings} {n : Int} {s t u : Session}

/-- Below the limit a turn does not depend on it. -/
theorem turn_withLimit (h : s.steps < n.toNat) :
    s.turn (settings.withLimit (some n)) = s.turn (settings.withLimit none) := by
  unfold turn
  rw [exhausted?_eq_none_iff.2 h, exhausted?_none]
  rfl

/-- As many turns as the limit allows do not depend on it. -/
theorem after_withLimit {k : Nat} (h : s.steps + k ≤ n.toNat) :
    after (settings.withLimit (some n)) k s = after (settings.withLimit none) k s := by
  induction k generalizing s with
  | zero => rfl
  | succ k ih =>
      rw [after, after, turn_withLimit (by omega)]
      cases hturn : s.turn (settings.withLimit none) with
      | next t =>
          have hsteps := steps_of_next hturn
          exact ih (by omega)
      | _ => rfl

/-- What ends the unlimited run ends the limited one, if the limit is not reached before.  A machine
that has halted is not asked for its steps. -/
theorem Ends.withLimit {ending : Ending} (h : Ends (settings.withLimit none) s ending t)
    (hlimit : ending = .halted ∨ s.steps < n.toNat) :
    Ends (settings.withLimit (some n)) s ending t := by
  cases h with
  | halted hstopped => exact .halted hstopped
  | exhausted _ hlimited => cases hlimited
  | faulted hrunning _ hcycle =>
      obtain hending | hlt := hlimit
      · cases hending
      · exact .faulted hrunning (exhausted?_eq_none_iff.2 hlt) hcycle
  | interrupted hrunning _ hcycle =>
      obtain hending | hlt := hlimit
      · cases hending
      · exact .interrupted hrunning (exhausted?_eq_none_iff.2 hlt) hcycle

/-- What is left when the limit stops a session. -/
def stopped (settings : Settings) (n : Int) (t : Session) : Result where
  output := t.machine.terminal.output
  steps := n.toNat
  final := { t.machine.processor with status := .faulted }
  watch := settings.sorted.options.watch
  trace := t.trace.toList
  error := some
    { kind := .stepLimitExceeded
      message := "Step limit exceeded: " ++ toString n
      step := n.toNat
      addr := t.machine.processor.pc.toNat
      instr := none }

end Session

section Truncation

variable {settings : Settings} {program : Program} {terminal : Terminal} {journal : Journal}
  {n : Int} {s t : Session}

/-- Within its limit a run is the unlimited one. -/
theorem run_withLimit_of_le
    (hs : program.session? settings.sorted.options terminal journal = some s) {fuel : Nat}
    {c : Conclusion} {r : Result}
    (h : run fuel (settings.withLimit none) program terminal journal = some c)
    (hr : c.result = some r) (hle : if r.error.isNone then r.steps ≤ n else r.steps < n) :
    run fuel (settings.withLimit (some n)) program terminal journal = some c := by
  have hzero := Session.steps_of_session? hs
  obtain ⟨k, v, ending, w, hlt, hafter, hends, rfl⟩ :=
    (run_eq_some_iff ((session?_withLimit none program terminal journal).trans hs)).1 h
  have hv : v.steps = k := by rw [Session.steps_after hafter, hzero, Nat.zero_add]
  have hw : w.steps = k := hends.steps_eq.trans hv
  have hlimit : (ending = .halted ∨ v.steps < n.toNat) ∧ k ≤ n.toNat := by
    obtain ⟨rfl, rfl⟩ | ⟨report, rfl, rfl⟩ := Session.result?_cases hr
    · have hle' : (w.steps : Int) ≤ n := hle
      exact ⟨.inl rfl, by omega⟩
    · have hlt' : (w.steps : Int) < n := hle
      exact ⟨.inr (by omega), by omega⟩
  rw [sorted_withLimit] at hafter hends
  have hafter' : s.after (settings.sorted.withLimit (some n)) k = some v := by
    rw [Session.after_withLimit (by omega), hafter]
  exact (run_eq_some_iff ((session?_withLimit (some n) program terminal journal).trans hs)).2
    ⟨k, v, ending, w, hlt, hafter', hends.withLimit hlimit.1, rfl⟩

/-- At its limit a run stops with what the unlimited one has come to by then. -/
theorem run_withLimit_of_after
    (hs : program.session? settings.sorted.options terminal journal = some s)
    (ht : s.after (settings.withLimit none).sorted n.toNat = some t)
    (hrunning : t.machine.processor.running = true) :
    ∃ c, run (n.toNat + 1) (settings.withLimit (some n)) program terminal journal = some c ∧
      c.result = some (t.stopped settings n) := by
  have hzero := Session.steps_of_session? hs
  have hsteps : t.steps = n.toNat := by rw [Session.steps_after ht, hzero, Nat.zero_add]
  rw [sorted_withLimit] at ht
  have hafter : s.after (settings.sorted.withLimit (some n)) n.toNat = some t := by
    rw [Session.after_withLimit (by omega), ht]
  have hends : t.Ends (settings.sorted.withLimit (some n)) _ _ :=
    .exhausted hrunning (exhausted?_of_le (Nat.le_of_eq hsteps.symm))
  refine ⟨_, (run_eq_some_iff ((session?_withLimit (some n) program terminal journal).trans hs)).2
    ⟨n.toNat, t, _, _, Nat.lt_succ_self _, hafter, hends, rfl⟩, ?_⟩
  show some _ = some _
  rw [Session.stopped, ← hsteps, ← Terminal.output_flush]
  rfl

end Truncation

/-- **Truncation.**  Compare the run of an image under a limit with the unlimited run.  Where that
halts within the limit or fails before it, the two are the same in everything they leave.  Where the
machine completes as many instructions as the limit allows and would go on, the limited run stops
there: it reports its limit, and its rows and output are those of the unlimited run up to then,
which are the first of whatever that run comes to. -/
theorem run_truncated {settings : Settings} {program : Program} {terminal : Terminal}
    {journal : Journal} {s : Session}
    (hs : program.session? settings.sorted.options terminal journal = some s) (n : Int) :
    (∀ fuel c r, run fuel (settings.withLimit none) program terminal journal = some c →
      c.result = some r → (if r.error.isNone then r.steps ≤ n else r.steps < n) →
      run fuel (settings.withLimit (some n)) program terminal journal = some c) ∧
    ∀ t, s.after (settings.withLimit none).sorted n.toNat = some t →
      t.machine.processor.running = true →
      (∃ c, run (n.toNat + 1) (settings.withLimit (some n)) program terminal journal = some c ∧
        c.result = some (t.stopped settings n)) ∧
      (∀ j u, t.after (settings.withLimit none).sorted j = some u →
        u.trace.toList.take n.toNat = t.trace.toList ∧
          t.machine.terminal.output <+: u.machine.terminal.output) ∧
      ∀ fuel c r, run fuel (settings.withLimit none) program terminal journal = some c →
        c.result = some r →
        r.trace.take n.toNat = t.trace.toList ∧ t.machine.terminal.output <+: r.output := by
  have hs' := (session?_withLimit none program terminal journal).trans hs
  refine ⟨fun fuel c r h hr hle => run_withLimit_of_le hs h hr hle, fun t ht hrunning => ?_⟩
  refine ⟨run_withLimit_of_after hs ht hrunning, fun j u hu => ?_, fun fuel c r h hr => ?_⟩
  · exact prefix_of_after hs' ht hu
  · exact prefix_of_run hs' ht h hr

/-- A program of two instructions: it clears a register and halts. -/
def Program.brief : Program := .image ⟨0x3000, [0x5020, 0xF025]⟩

theorem run_truncated_brief :
    (∃ c r, run 5 (Settings.withLimit {} none) Program.brief (.buffer [] .sentinel) ⟨.error, #[]⟩ =
        some c ∧ c.result = some r ∧ r.error = none ∧ r.steps = 2 ∧
      run 5 (Settings.withLimit {} (some 2)) Program.brief (.buffer [] .sentinel) ⟨.error, #[]⟩ =
        some c) ∧
    ∃ c r, run 2 (Settings.withLimit {} (some 1)) Program.brief (.buffer [] .sentinel)
        ⟨.error, #[]⟩ = some c ∧ c.result = some r ∧
      r.error.map (·.addr) = some 0x3001 ∧ r.steps = 1 := by
  have hs : Program.brief.session? ({} : Settings).sorted.options (.buffer [] .sentinel)
      ⟨.error, #[]⟩ = some _ := rfl
  refine ⟨⟨_, _, rfl, rfl, rfl, rfl, (run_truncated hs 2).1 5 _ _ rfl rfl (by decide)⟩, ?_⟩
  obtain ⟨⟨c, hc, hr⟩, -⟩ := (run_truncated hs 1).2 _ rfl rfl
  exact ⟨c, _, hc, hr, rfl, rfl⟩

end LittleComputer
