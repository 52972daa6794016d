import LittleComputer.Proofs.Output

/-!
# Transcripts

The transcript of a terminal keeps what has happened there, in order.  An instruction that uses the
terminal asks for one character at most, before anything else; then it writes; and four of the traps
push out the output in the end.  The transcript of a run is a sequence of such exchanges, and one
more flush.

* `Word.Flushes` — the word is one of the traps that push out the output.
* `Exchange`, `Machine.Exchanges` — what an instruction has to do with the terminal.
* `Exec.exchange_of_cycle`, `Exec.transcript_of_cycle_error` — **every completed cycle is an
  exchange**; one that stops has asked for a character at most.
* `Session.Logs`, `Session.Logs.transcript` — the exchanges of some turns, and their events.
* `Event.unflushed` — the bytes that have been written and not been pushed out yet.
* `run_flushes` — **how often a run pushes out its output**, and that it does so last of all.
-/

namespace LittleComputer

/-! ## What operations add -/

namespace Terminal

variable (t : Terminal)

theorem transcript_flush : t.flush.transcript.toList = t.transcript.toList ++ [.flushed] :=
  Array.toList_push

theorem transcript_writeAll (codes : List Int) :
    (t.writeAll codes).transcript.toList =
      t.transcript.toList ++ (codes.map (BitVec.ofInt 8)).map .wrote := by
  induction codes generalizing t with
  | nil => exact (List.append_nil _).symm
  | cons code rest ih =>
      have hfirst : (t.write code).transcript.toList =
          t.transcript.toList ++ [.wrote (BitVec.ofInt 8 code)] := Array.toList_push
      show ((t.write code).writeAll rest).transcript.toList = _
      rw [ih, hfirst, List.append_assoc]
      rfl

theorem transcript_read {result : Except Stop Nat} {t' : Terminal} (h : t.read = (result, t')) :
    t'.transcript.toList = t.transcript.toList ++ [.read t.pending.head?] := by
  have hleft : t' = t.read.2 := congrArg Prod.snd h.symm
  rw [hleft, read]
  cases t.pending with
  | cons code rest => exact Array.toList_push
  | nil =>
      dsimp only
      split <;> exact Array.toList_push

end Terminal

/-! ## Bytes that are held back -/

namespace Event

/-- The bytes that are held back after an event, if these were before. -/
def hold (held : List Byte) : Event → List Byte
  | read _ => held
  | wrote byte => held ++ [byte]
  | flushed => []

/-- The bytes that have been written and not been pushed out since. -/
def unflushed (events : List Event) : List Byte := events.foldl hold []

/-- Reading makes no difference to them, -/
theorem unflushed_read (events : List Event) (code : Option Nat) :
    unflushed (events ++ [.read code]) = unflushed events := by
  rw [unflushed, List.foldl_append]
  rfl

/-- writing adds to them, -/
theorem unflushed_wrote (events : List Event) (bytes : List Byte) :
    unflushed (events ++ bytes.map .wrote) = unflushed events ++ bytes := by
  induction bytes generalizing events with
  | nil => rw [List.map_nil, List.append_nil, List.append_nil]
  | cons byte rest ih =>
      have hfirst : unflushed (events ++ [.wrote byte]) = unflushed events ++ [byte] := by
        rw [unflushed, List.foldl_append]
        rfl
      rw [List.map_cons, List.append_cons, ih, hfirst, ← List.append_cons]

/-- and a flush leaves none. -/
theorem unflushed_flushed (events : List Event) : unflushed (events ++ [.flushed]) = [] := by
  rw [unflushed, List.foldl_append]
  rfl

/-- The events of an exchange: a character is asked for, or none; then these bytes are written; and
they are pushed out, or not. -/
def exchange (asked : Option (Option Nat)) (bytes : List Byte) (flushes : Bool) : List Event :=
  asked.toList.map read ++ bytes.map wrote ++ if flushes then [flushed] else []

theorem exchange_false (asked : Option (Option Nat)) (bytes : List Byte) :
    exchange asked bytes false = asked.toList.map read ++ bytes.map wrote :=
  List.append_nil _

theorem exchange_true (asked : Option (Option Nat)) (bytes : List Byte) :
    exchange asked bytes true = asked.toList.map read ++ bytes.map wrote ++ [flushed] := rfl

/-- What an exchange asks for and writes is no flush. -/
theorem countP_exchange (asked : Option (Option Nat)) (bytes : List Byte) (flushes : Bool) :
    (exchange asked bytes flushes).countP (· == .flushed) = if flushes then 1 else 0 := by
  have hasked : (asked.toList.map read).countP (· == .flushed) = 0 := by
    rw [List.countP_map]
    exact List.countP_eq_zero.2 fun _ _ => Bool.false_ne_true
  have hbytes : (bytes.map wrote).countP (· == .flushed) = 0 := by
    rw [List.countP_map]
    exact List.countP_eq_zero.2 fun _ _ => Bool.false_ne_true
  rw [exchange, List.countP_append, List.countP_append, hasked, hbytes]
  cases flushes <;> rfl

/-- An exchange without a flush holds back what it writes. -/
theorem unflushed_exchange_false (events : List Event) (asked : Option (Option Nat))
    (bytes : List Byte) :
    unflushed (events ++ exchange asked bytes false) = unflushed events ++ bytes := by
  rw [exchange_false, ← List.append_assoc, unflushed_wrote]
  cases asked with
  | none => rw [Option.toList_none, List.map_nil, List.append_nil]
  | some code => rw [Option.toList_some, List.map_singleton, unflushed_read]

end Event

/-! ## Traps that push out the output -/

/-- The word is one of the four traps that push out the output. -/
def Word.Flushes (w : Word) : Prop :=
  ∃ vector ∈ ([0x20, 0x22, 0x24, 0x25] : List Byte), w.IsTrap vector

instance : DecidablePred Word.Flushes := fun w =>
  inferInstanceAs (Decidable (∃ vector ∈ ([0x20, 0x22, 0x24, 0x25] : List Byte),
    w.extractLsb' 12 4 = 0xF#4 ∧ w.lowByte = vector))

/-- The routines that push out the output. -/
def Trap.flushes : Trap → Bool
  | getc | puts | putsp | halt => true
  | out | readEcho => false

/-- What the word says its routine does. -/
theorem Trap.flushes_iff {w : Word} {routine : Trap} (hop : w.opcode = .trap)
    (hv : Trap.ofVector? (decode w.toNat).trapVector = some routine) :
    routine.flushes = true ↔ w.Flushes := by
  have hvector := Word.lowByte_of_routine hv
  have htop := (Word.opcode_eq_trap_iff w).1 hop
  have hflushes : w.Flushes ↔
      BitVec.ofNat 8 routine.vector ∈ ([0x20, 0x22, 0x24, 0x25] : List Byte) := by
    constructor
    · rintro ⟨vector, hmem, -, hlow⟩
      rw [← hvector, hlow]
      exact hmem
    · intro hmem
      exact ⟨_, hmem, htop, hvector⟩
  rw [hflushes]
  cases routine <;> decide

/-! ## Single instructions -/

/-- What an instruction has to do with the terminal. -/
structure Exchange where
  /-- The word that is carried out. -/
  word : Word
  /-- What it is given, if it asks for a character. -/
  asked : Option (Option Nat)
  /-- The bytes that it writes. -/
  bytes : List Byte

/-- What there is of it in the transcript. -/
def Exchange.events (e : Exchange) : List Event := Event.exchange e.asked e.bytes e.word.Flushes

/-- `m.Exchanges instructions e m'` : the machine `m` carries out an instruction and becomes `m'`,
and the exchange with the terminal is `e`. -/
structure Machine.Exchanges (m : Machine) (instructions : InstructionSet) (e : Exchange)
    (m' : Machine) : Prop where
  /-- The word is carried out. -/
  cycle : Exec.cycle instructions m = .ok e.word m'
  /-- The bytes are those that it makes the machine write. -/
  emits : m.Emits e.word e.bytes
  /-- The events come after those from before. -/
  transcript : m'.terminal.transcript.toList = m.terminal.transcript.toList ++ e.events

/-- What is added to the output and what is added to the transcript are the same bytes. -/
theorem Terminal.written_of_transcript {t t' : Terminal} {asked : Option (Option Nat)}
    {bytes : List Byte} {flushes : Bool}
    (h : t'.transcript.toList = t.transcript.toList ++ Event.exchange asked bytes flushes) :
    t'.written = t.written ++ bytes := by
  rw [written, written, h, Event.exchange, List.filterMap_append, List.filterMap_append,
    List.filterMap_append]
  cases asked <;> cases flushes <;> simp [List.filterMap_map]

/-- A string is written and pushed out. -/
theorem Terminal.transcript_writeAll_flush (t : Terminal) (codes : List Int) :
    (t.writeAll codes).flush.transcript.toList =
      t.transcript.toList ++ Event.exchange none (codes.map (BitVec.ofInt 8)) true := by
  rw [transcript_flush, transcript_writeAll, List.append_assoc]
  rfl

/-- A routine asks, writes and pushes out, in this order. -/
theorem Trap.transcript_of_run {routine : Trap} {m m' : Machine} (h : routine.run m = .ok () m') :
    ∃ asked bytes, m'.terminal.transcript.toList =
      m.terminal.transcript.toList ++ Event.exchange asked bytes routine.flushes := by
  cases routine with
  | getc =>
      rw [run_getc, Exec.bind_finish_eq_ok] at h
      obtain ⟨code, m₁, hchar, -, rfl⟩ := h
      obtain ⟨t, ht, rfl⟩ := Exec.readChar_cases hchar
      refine ⟨some m.terminal.pending.head?, [], (t.transcript_flush).trans ?_⟩
      rw [Terminal.transcript_read _ ht, List.append_assoc]
      rfl
  | out =>
      cases h
      refine ⟨none, [BitVec.ofInt 8 (m.processor.register .r0).toNat],
        (m.terminal.transcript_writeAll _).trans ?_⟩
      rw [flushes, Event.exchange_false]
      rfl
  | puts =>
      rw [run_puts, Exec.bind_finish_eq_ok] at h
      obtain ⟨words, m₁, hstring, -, rfl⟩ := h
      obtain ⟨-, rfl⟩ := Exec.string_cases hstring
      exact ⟨none, _, Terminal.transcript_writeAll_flush _ _⟩
  | readEcho =>
      rw [run_readEcho, Exec.bind_finish_eq_ok] at h
      obtain ⟨code, m₁, hchar, -, rfl⟩ := h
      obtain ⟨t, ht, rfl⟩ := Exec.readChar_cases hchar
      refine ⟨some m.terminal.pending.head?, [BitVec.ofInt 8 code],
        (t.transcript_writeAll [(code : Int)]).trans ?_⟩
      rw [Terminal.transcript_read _ ht, List.append_assoc, flushes, Event.exchange_false]
      rfl
  | putsp =>
      rw [run_putsp, Exec.bind_finish_eq_ok] at h
      obtain ⟨words, m₁, hstring, -, rfl⟩ := h
      obtain ⟨-, rfl⟩ := Exec.string_cases hstring
      exact ⟨none, _, Terminal.transcript_writeAll_flush _ _⟩
  | halt =>
      cases h
      exact ⟨none, [], m.terminal.transcript_flush⟩

namespace Exec

variable {instructions : InstructionSet} {m m' : Machine} {w : Word} {e : Stop}

/-- A completed cycle asks, writes and pushes out, in this order. -/
theorem transcript_of_cycle (h : cycle instructions m = .ok w m') :
    ∃ asked bytes, m'.terminal.transcript.toList =
      m.terminal.transcript.toList ++ Event.exchange asked bytes w.Flushes := by
  obtain ⟨routine, m₁, hop, hv, hrun, hsame⟩ | ⟨hop, hquiet⟩ := terminal_of_cycle h
  · obtain ⟨asked, bytes, htranscript⟩ := Trap.transcript_of_run hrun
    have hflushes : routine.flushes = decide w.Flushes :=
      Bool.eq_iff_iff.2 ((Trap.flushes_iff hop hv).trans decide_eq_true_iff.symm)
    rw [hflushes] at htranscript
    rw [hsame]
    exact ⟨asked, bytes, htranscript⟩
  · have hflushes : ¬ w.Flushes := by
      rintro ⟨vector, -, htop, -⟩
      exact hop ((Word.opcode_eq_trap_iff w).2 htop)
    rw [decide_eq_false hflushes]
    obtain hsame | ⟨code, hread⟩ := hquiet
    · refine ⟨none, [], ?_⟩
      rw [hsame]
      exact (List.append_nil _).symm
    · exact ⟨some m.terminal.pending.head?, [], m.terminal.resetCodes.transcript_read hread⟩

/-- **Every completed cycle is an exchange.** -/
theorem exchange_of_cycle (h : cycle instructions m = .ok w m') :
    ∃ exchange, m.Exchanges instructions exchange m' := by
  obtain ⟨-, bytes, hemits, hprints⟩ := emits_of_cycle h
  obtain ⟨asked, bytes', htranscript⟩ := transcript_of_cycle h
  -- the bytes that the transcript shows can only be those that the word makes the machine write
  have hsame := Terminal.written_of_transcript htranscript
  rw [hprints.written, List.append_cancel_left_eq] at hsame
  rw [← hsame] at htranscript
  exact ⟨⟨w, asked, bytes⟩, h, hemits, htranscript⟩

/-- **A cycle that stops** has asked for one character at most. -/
theorem transcript_of_cycle_error (h : cycle instructions m = .error e m') :
    ∃ asked, m'.terminal.transcript.toList =
      m.terminal.transcript.toList ++ Event.exchange asked [] false := by
  have hnothing : ∀ t : Terminal,
      t.transcript.toList = t.transcript.toList ++ Event.exchange none [] false :=
    fun t => (List.append_nil _).symm
  obtain ⟨-, t, ht, rfl⟩ | ⟨w, m₁, hfetch, hstop⟩ := cycle_error_cases h
  · exact ⟨some _, Terminal.transcript_read _ ht⟩
  · obtain ⟨-, hw, rfl⟩ | ⟨-, rfl, code, t, ht, rfl⟩ := fetch_cases hfetch
    · obtain ⟨-, -, rfl⟩ | ⟨-, hstops⟩ := hstop
      · exact ⟨none, hnothing m.terminal⟩
      · obtain hsame | ht := Instruction.terminal_of_stops hstops
        · refine ⟨none, ?_⟩
          rw [hsame]
          exact hnothing m.terminal
        · exact ⟨some m.terminal.pending.head?,
            Terminal.transcript_read (m.advance w).resetCodes.terminal ht⟩
    · -- the word that is fetched from the keyboard asks for nothing
      have hquiet : m'.terminal = t.resetCodes := by
        obtain ⟨-, -, rfl⟩ | ⟨-, hstops⟩ := hstop
        · rfl
        · cases hstops with
          | input htrap _ _ => exact absurd htrap (by decide)
          | keyboard hreads _ => exact absurd hreads (by decide)
          | unused _ => rfl
          | unknownVector _ _ => rfl
          | endless _ _ _ => rfl
      have htranscript := m.terminal.transcript_read ht
      refine ⟨some m.terminal.pending.head?, ?_⟩
      rw [hquiet]
      exact htranscript

end Exec

/-! ## Several turns -/

namespace Session

/-- `s.Logs settings log t` : some turns lead from `s` to `t`, and these are their exchanges, in
order. -/
inductive Logs (settings : Settings) (s : Session) : List Exchange → Session → Prop where
  /-- No turn has been taken. -/
  | start : Logs settings s [] s
  /-- There is one more turn. -/
  | turn {log : List Exchange} {t u : Session} {e : Exchange} (before : Logs settings s log t)
      (next : t.turn settings = .next u)
      (exchange : t.machine.Exchanges settings.instructions e u.machine) :
      Logs settings s (log ++ [e]) u

variable {settings : Settings} {s t u : Session} {log : List Exchange}

/-- A turn that is taken is an exchange. -/
theorem exchange_of_turn (h : t.turn settings = .next u) :
    ∃ e, t.machine.Exchanges settings.instructions e u.machine := by
  obtain ⟨-, -, w, m, hcycle, rfl⟩ := turn_eq_next_iff.1 h
  exact Exec.exchange_of_cycle hcycle

/-- Whatever turns have been taken, there is a log of them. -/
theorem exists_logs {n : Nat} (h : s.after settings n = some t) :
    ∃ log, s.Logs settings log t ∧ log.length = n := by
  induction n generalizing t with
  | zero =>
      cases h
      exact ⟨[], .start, rfl⟩
  | succ n ih =>
      obtain ⟨u, hu, hturn⟩ := after_succ_eq_some_iff'.1 h
      obtain ⟨log, hlog, hlength⟩ := ih hu
      obtain ⟨e, hexchange⟩ := exchange_of_turn hturn
      exact ⟨log ++ [e], .turn hlog hturn hexchange, by rw [List.length_append, hlength]; rfl⟩

namespace Logs

/-- There are as many exchanges as turns. -/
theorem after (h : s.Logs settings log t) : s.after settings log.length = some t := by
  induction h with
  | start => rfl
  | turn _ hturn _ ih =>
      rw [List.length_append]
      exact after_succ_eq_some_iff'.2 ⟨_, ih, hturn⟩

/-- **The transcript is the events of the exchanges.** -/
theorem transcript (h : s.Logs settings log t) :
    t.machine.terminal.transcript.toList =
      s.machine.terminal.transcript.toList ++ log.flatMap Exchange.events := by
  induction h with
  | start => exact (List.append_nil _).symm
  | turn _ _ hexchange ih =>
      rw [hexchange.transcript, ih, List.flatMap_append, List.flatMap_singleton, List.append_assoc]

/-- Each of the exchanges is that of a turn. -/
theorem exchange_of_mem (h : s.Logs settings log t) {e : Exchange} (he : e ∈ log) :
    ∃ m m' : Machine, m.Exchanges settings.instructions e m' := by
  induction h with
  | start => cases he
  | turn _ _ hexchange ih =>
      obtain hbefore | hlast := List.mem_append.1 he
      · exact ih hbefore
      · rw [List.mem_singleton.1 hlast]
        exact ⟨_, _, hexchange⟩

end Logs

end Session

/-! ## Whole runs -/

/-- The turn that ends a run has asked for one character at most. -/
theorem Session.transcript_of_ends {settings : Settings} {t u : Session} {ending : Ending}
    (h : t.Ends settings ending u) :
    ∃ asked, u.machine.terminal.transcript.toList =
      t.machine.terminal.transcript.toList ++ Event.exchange asked [] false := by
  cases h with
  | halted _ => exact ⟨none, (List.append_nil _).symm⟩
  | exhausted _ _ => exact ⟨none, (List.append_nil _).symm⟩
  | faulted _ _ hcycle =>
      obtain ⟨asked, hasked⟩ := Exec.transcript_of_cycle_error hcycle
      exact ⟨asked, hasked⟩
  | interrupted _ _ hcycle => exact Exec.transcript_of_cycle_error hcycle

/-- **The transcript of a run**: the exchanges of its completed steps, what the last instruction has
asked for if it could not be completed, and a flush. -/
theorem run_transcript {settings : Settings} {program : Program} {terminal : Terminal}
    {journal : Journal} {s : Session} {fuel : Nat} {c : Conclusion}
    (hs : program.session? settings.sorted.options terminal journal = some s)
    (h : run fuel settings program terminal journal = some c) :
    ∃ (log : List Exchange) (t u : Session) (ending : Ending) (asked : Option (Option Nat)),
      s.Logs settings.sorted log t ∧ t.Ends settings.sorted ending u ∧
      (∀ r, c.result = some r → r.steps = log.length) ∧
      c.terminal.transcript.toList = terminal.transcript.toList ++
        (log.flatMap Exchange.events ++ Event.exchange asked [] false) ++ [.flushed] := by
  obtain ⟨n, t, ending, u, -, hafter, hends, rfl⟩ := (run_eq_some_iff hs).1 h
  obtain ⟨log, hlog, rfl⟩ := Session.exists_logs hafter
  obtain ⟨asked, hasked⟩ := Session.transcript_of_ends hends
  refine ⟨log, t, u, ending, asked, hlog, hends, fun r hr => ?_, ?_⟩
  · obtain ⟨hsteps, -⟩ := Session.steps_of_ends hends hr
    rw [hsteps, Session.steps_after hafter, Session.steps_of_session? hs, Nat.zero_add]
  · refine (Terminal.transcript_flush _).trans ?_
    rw [hasked, hlog.transcript, Session.terminal_of_session? hs, ← List.append_assoc]

/-- The flushes of several exchanges are counted by their words. -/
theorem Exchange.countP_flatMap_flushed (log : List Exchange) :
    (log.flatMap events).countP (· == .flushed) = log.countP (·.word.Flushes) := by
  induction log with
  | nil => rfl
  | cons e rest ih =>
      rw [List.flatMap_cons, List.countP_append, ih, events, Event.countP_exchange,
        List.countP_cons, Nat.add_comm]

/-- **Flushes of a console.**  A run of an image pushes out its output once for each completed step
that is one of the four traps, and once more at its end; that is the last thing it does, and nothing
is held back.  Where there is no image, nothing happens at all. -/
theorem run_flushes {settings : Settings} {program : Program} {bytes : List Byte}
    {policy : EndOfInput} {journal : Journal} {fuel : Nat} {c : Conclusion}
    (h : run fuel settings program (.console bytes policy) journal = some c) :
    (∀ image, program.image? = some image → ∃ s log t u ending,
      program.session? settings.sorted.options (.console bytes policy) journal = some s ∧
      s.Logs settings.sorted log t ∧ t.Ends settings.sorted ending u ∧
      (∀ r, c.result = some r → r.steps = log.length) ∧
      c.terminal.flushCount = 1 + log.countP (·.word.Flushes) ∧
      c.terminal.transcript.back? = some .flushed ∧
      Event.unflushed c.terminal.transcript.toList = []) ∧
    (program.image? = none → c.terminal.transcript = #[]) := by
  constructor
  · intro image himage
    obtain ⟨journal', hs⟩ := Program.session?_of_image? himage settings.sorted.options
      (.console bytes policy) journal
    obtain ⟨log, t, u, ending, asked, hlog, hends, hsteps, htranscript⟩ := run_transcript hs h
    refine ⟨_, log, t, u, ending, hs, hlog, hends, hsteps, ?_, ?_, ?_⟩
    · rw [Terminal.flushCount, htranscript, List.countP_append, List.countP_append,
        List.countP_append, Exchange.countP_flatMap_flushed, Event.countP_exchange, Nat.add_comm 1]
      exact congrArg (· + 1) (Nat.zero_add _)
    · rw [← Array.getLast?_toList, htranscript, List.getLast?_concat]
    · rw [htranscript, Event.unflushed_flushed]
  · intro himage
    have hs := Program.session?_eq_none himage settings.sorted.options (.console bytes policy)
      journal
    obtain ⟨e, journal', hrun⟩ := run_of_session?_eq_none hs
    rw [hrun] at h
    cases h
    rfl

/-- A program that takes a character, writes it and waits in vain for another one.  The trap that
fails does not count. -/
theorem run_flushes_underflow :
    ∃ c r log, run 3 {} (.image ⟨0x3000, [0xF020, 0xF021, 0xF020]⟩) (.console [0x41] .underflow)
        ⟨.error, #[]⟩ = some c ∧ c.result = some r ∧ r.final.status = .faulted ∧
      (log : List Exchange).length = 2 ∧ log.countP (·.word.Flushes) = 1 ∧
      c.terminal.flushCount = 2 ∧ c.terminal.transcript.back? = some .flushed := by
  have hrun : run 3 {} (.image ⟨0x3000, [0xF020, 0xF021, 0xF020]⟩) (.console [0x41] .underflow)
      ⟨.error, #[]⟩ = some _ := rfl
  obtain ⟨s, log, t, u, ending, -, -, -, hsteps, hcount, hlast, -⟩ := (run_flushes hrun).1 _ rfl
  have htwo : 1 + 1 = 1 + log.countP (·.word.Flushes) := hcount
  exact ⟨_, _, log, hrun, rfl, rfl, (hsteps _ rfl).symm, (Nat.add_left_cancel htwo).symm, rfl,
    hlast⟩

end LittleComputer
