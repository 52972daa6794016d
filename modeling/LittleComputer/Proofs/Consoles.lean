import LittleComputer.Proofs.Devices
import LittleComputer.Proofs.PlainRuns

/-!
# Consoles and buffers

A console takes bytes from one stream and sends bytes to another, a buffer walks over a text and
collects one.  The same program does the same on either, but for the output that can be shown
afterwards.

* `Terminal.simulation_device`, `results_on_device` — terminals that differ only in their devices
  agree, and so do the results of runs on them.
* `run_console` — **a console is a buffer** whose output has gone out.
* `sent_of_run` — a run on a console sends out, in order, what its terminal writes and flushes.
-/

namespace LittleComputer

/-! ## Terminals -/

/-- **Terminals that differ only in their devices agree**, whatever is read. -/
theorem Terminal.simulation_device (device : Device) :
    Simulation (fun t t' => t' = t.on device t.atEnd) fun _ => False where
  codes := by
    rintro t _ rfl
    exact ⟨rfl, rfl⟩
  read := by
    rintro t _ rfl
    rw [read_on_atEnd, atEnd_read]
    exact .inr ⟨rfl, rfl⟩
  writeAll := by
    rintro t _ codes rfl
    rw [writeAll_on, (input_writeAll t codes).2]
  flush := by
    rintro t _ rfl
    rfl
  resetCodes := by
    rintro t _ rfl
    rfl
  lost := Machine.closed_false

/-- Runs on such terminals give the same result, up to the output that they can show. -/
theorem results_on_device (device : Device) {terminal : Terminal}
    (hend : terminal.atEnd ≠ .interrupt) (settings : Settings) (program : Program)
    (journal : Journal) (fuel : Nat) :
    (run fuel settings program terminal journal = none ∧
      run fuel settings program (terminal.on device terminal.atEnd) journal = none) ∨
    ∃ c c' r r', run fuel settings program terminal journal = some c ∧
      run fuel settings program (terminal.on device terminal.atEnd) journal = some c' ∧
      c.result = some r ∧ c'.result = some r' ∧ r = { r' with output := r.output } ∧
      c'.terminal = c.terminal.on device c.terminal.atEnd ∧ c.journal = c'.journal ∧
      (r.output = c.terminal.output ∧ r'.output = c'.terminal.output ∨
        r.output = [] ∧ r'.output = [] ∧ c.terminal = terminal) := by
  cases hs : program.session? settings.sorted.options terminal journal with
  | none =>
      obtain ⟨e, journal', hrun⟩ := run_of_session?_eq_none hs
      exact .inr ⟨_, _, _, _, hrun _ _, hrun _ _, rfl, rfl, rfl, rfl, rfl, .inr ⟨rfl, rfl, rfl⟩⟩
  | some s =>
      have hsim := Terminal.simulation_device device
      obtain hnone | ⟨c, c', r, r', hc, hc', hr, hr', hsame, houtput, hterminal, hjournal⟩ :=
        results_alike hsim rfl hs (fun _ _ _ hloses => hloses.2.2) hend fuel
      · exact .inl hnone
      · have hshown : r.output = c.terminal.output := by rw [hsame]
        refine .inr ⟨c, c', r, r', hc, hc', hr, hr', ?_, hterminal, hjournal,
          .inl ⟨hshown, houtput⟩⟩
        rw [hshown]
        exact hsame

/-! ## Ports -/

/-- A console has sent out what its terminal has written. -/
theorem Port.Shows.sent {p : Port Console} {t : Terminal} (h : p.Shows t) :
    p.own.written = t.written := by
  have hinjective : Function.Injective (List.map (BitVec.toNat : Byte → Nat)) :=
    List.map_injective_iff.2 fun _ _ => BitVec.eq_of_toNat_eq
  exact hinjective h.written.symm

/-- **A console is a buffer whose output has gone out.**  Running a program on a console with some
bytes to come is running it on a buffer over these bytes as text: both come to an end or neither
does, the results differ only in the output that they can show, which is none on the console; the
console has sent out the characters of the other's output, and as much of the input is left. -/
theorem run_console (settings : Settings) (program : Program) (bytes : List Byte) (strict : Bool)
    (journal : Journal) (fuel : Nat) :
    (Plain.run fuel settings program (.console bytes strict) journal = none ∧
      Plain.run fuel settings program
        (.buffer ((Text.ofBytes bytes).toList.map Char.toNat) strict) journal = none) ∨
    ∃ c c' r r', Plain.run fuel settings program (.console bytes strict) journal = some c ∧
      Plain.run fuel settings program
        (.buffer ((Text.ofBytes bytes).toList.map Char.toNat) strict) journal = some c' ∧
      c.outcome = .ok r ∧ c'.outcome = .ok r' ∧ r = { r' with output := [] } ∧
      c.port.own.written.map BitVec.toNat = r'.output ∧
      c.port.own.stdin.length = c'.port.own.input.size - c'.port.own.position ∧
      c.journal = c'.journal := by
  rw [Text.codes_ofBytes]
  have hconsole : (Port.console bytes strict).Shows (.console bytes (.ofStrict strict)) :=
    Port.shows_console bytes strict false
  have hbuffer : (Port.buffer (bytes.map BitVec.toNat) strict).Shows
      ((Terminal.console bytes (.ofStrict strict)).on .buffer (.ofStrict strict)) :=
    Port.shows_buffer (bytes.map BitVec.toNat) strict
  have hend : (Terminal.console bytes (.ofStrict strict)).atEnd ≠ .interrupt :=
    EndOfInput.ofStrict_ne_interrupt strict
  obtain ⟨hnone, hnone'⟩ |
      ⟨d, d', q, q', hd, hd', hq, hq', hsame, hterminal, hjournal, houtput⟩ :=
    results_on_device .buffer hend settings program journal fuel
  · exact .inl ⟨rendered_of_none Port.simulation hconsole hnone,
      rendered_of_none Port.simulation hbuffer hnone'⟩
  · obtain ⟨c, hc, hleft⟩ := rendered_of_run Port.simulation hconsole hd
    obtain ⟨c', hc', hright⟩ := rendered_of_run Port.simulation hbuffer hd'
    have houtcome := hleft.outcome
    have houtcome' := hright.outcome
    rw [hq] at houtcome
    rw [hq'] at houtcome'
    have hsent := hleft.port.written
    have hunread := hleft.port.pending
    have hunread' := hright.port.pending
    rw [hterminal] at hunread'
    -- the console has nothing to show, and the buffer shows what the console has sent out
    have hshown : q.output = [] ∧ q'.output = d.terminal.written := by
      have hdevice := hleft.port.device
      obtain ⟨hq, hq'⟩ | ⟨hq, hq', hsame⟩ := houtput
      · rw [hq, hq', hterminal, Terminal.output, hdevice]
        exact ⟨rfl, rfl⟩
      · rw [hq, hq', hsame]
        exact ⟨rfl, rfl⟩
    refine .inr ⟨c, c', q.plain, q'.plain, hc, hc', houtcome, houtcome', ?_, ?_, ?_, ?_⟩
    · rw [hsame, hshown.1]
      rfl
    · rw [Result.plain, hshown.2]
      exact hsent.symm
    · have hlength := congrArg List.length (hunread.symm.trans hunread')
      simpa [Visible.seen] using hlength
    · rw [hleft.journal, hright.journal]
      exact hjournal

/-- **A run on a console sends out** what its terminal has written and flushed, in that order. -/
theorem sent_of_run (settings : Settings) (program : Program) (bytes : List Byte)
    (strict interrupts : Bool) (journal : Journal) {fuel : Nat} {c' : Plain.Conclusion Console}
    (h : Plain.run fuel settings program (.console bytes strict interrupts) journal = some c') :
    ∃ c, run fuel settings program
        (.console bytes (if interrupts then .interrupt else .ofStrict strict)) journal = some c ∧
      c'.port.own.stdout.toList = c.terminal.transcript.toList.filterMap Event.sent? ∧
      c'.port.own.flushCount = c.terminal.flushCount := by
  obtain ⟨c, hc, hsame⟩ :=
    rendered_of_plain Console.simulation (Port.sends_console bytes strict interrupts) h
  refine ⟨c, hc, hsame.port.sent, ?_⟩
  rw [Console.flushCount, hsame.port.sent, List.countP_filterMap, Terminal.flushCount]
  refine List.countP_congr fun event _ => ?_
  cases event <;> simp [Event.sent?]

end LittleComputer
