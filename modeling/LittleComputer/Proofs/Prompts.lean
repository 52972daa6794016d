import LittleComputer.Proofs.Transcripts

/-!
# What is on display when a character is asked for

On a console the user sees what has been pushed out.  A program that prints its prompt as a string
can wait for the answer, for strings are pushed out at once.  Single characters are not: the two
traps that write them leave the rest to whatever pushes out next, and nothing that asks for a
character pushes out first.

* `Session.Asks` — in its next turn a session asks for a character, when these events have come
  before.
* `Session.Asks.before_eq` — an instruction asks before it does anything else.
* `Session.Logs.unflushed` — what is held back after some turns.
* `Session.Logs.exists_asks` — each read in a transcript is that of some turn.
* `run_prompts` — **what is held back when a character is asked for** has been written by the two
  traps since the last flush; `held_back_at_read` shows that there can be such bytes.
-/

namespace LittleComputer

/-! ## Asking for a character -/

/-- An exchange begins with what it asks for, if it asks for anything. -/
theorem Event.eq_nil_of_prefix_exchange {before : List Event} {code : Option Nat}
    {asked : Option (Option Nat)} {bytes : List Byte} {flushes : Bool}
    (h : before ++ [.read code] <+: exchange asked bytes flushes) : before = [] := by
  have hrest : .read code ∉ bytes.map wrote ++ if flushes then [flushed] else [] := by
    cases flushes <;> simp
  rw [exchange, List.append_assoc] at h
  cases asked with
  | none => exact absurd (h.subset (by simp)) hrest
  | some first =>
      cases before with
      | nil => rfl
      | cons event before =>
          obtain ⟨-, htail⟩ := List.cons_prefix_cons.1 h
          exact absurd (htail.subset (by simp)) hrest

/-- Whether it is completed or not, a cycle is an exchange. -/
theorem Exec.transcript_of_left (instructions : InstructionSet) (m : Machine) :
    ∃ asked bytes flushes, (left (cycle instructions) m).terminal.transcript.toList =
      m.terminal.transcript.toList ++ Event.exchange asked bytes flushes := by
  cases hcycle : cycle instructions m with
  | ok w m' =>
      obtain ⟨e, hexchange⟩ := exchange_of_cycle hcycle
      rw [left_of_ok hcycle]
      exact ⟨_, _, _, hexchange.transcript⟩
  | error stop m' =>
      obtain ⟨asked, htranscript⟩ := transcript_of_cycle_error hcycle
      rw [left_of_error hcycle]
      exact ⟨asked, [], false, htranscript⟩

namespace Session

variable {settings : Settings} {s t u : Session} {before : List Event} {code : Option Nat}
  {log : List Exchange}

/-- `t.Asks settings before code` : in its next turn the session asks the terminal for a character
and is given this one, if there is one.  All that has happened at the terminal before that are these
events. -/
structure Asks (settings : Settings) (t : Session) (before : List Event) (code : Option Nat) :
    Prop where
  /-- The session runs, -/
  running : t.machine.processor.running = true
  /-- and may take another turn. -/
  unlimited : settings.options.exhausted? t.steps = none
  /-- The character is asked for in this turn and not before. -/
  within : t.machine.terminal.transcript.toList <+: before
  /-- The turn asks for it. -/
  asks : before ++ [.read code] <+:
    (Exec.left (Exec.cycle settings.instructions) t.machine).terminal.transcript.toList

/-- **An instruction asks before it does anything else.** -/
theorem Asks.before_eq (h : t.Asks settings before code) :
    before = t.machine.terminal.transcript.toList := by
  obtain ⟨events, rfl⟩ := h.within
  obtain ⟨asked, bytes, flushes, hleft⟩ :=
    Exec.transcript_of_left settings.instructions t.machine
  have hasks := h.asks
  rw [hleft, List.append_assoc, List.prefix_append_right_inj] at hasks
  rw [Event.eq_nil_of_prefix_exchange hasks, List.append_nil]

/-! ## What is held back -/

/-- **What is held back** is what has been written since the last exchange that pushed out, if there
has been one. -/
theorem Logs.unflushed (h : s.Logs settings log t)
    (hs : s.machine.terminal.transcript.toList = []) :
    ∃ earlier since, log = earlier ++ since ∧ (∀ e ∈ earlier.getLast?, e.word.Flushes) ∧
      (∀ e ∈ since, ¬ e.word.Flushes) ∧
      Event.unflushed t.machine.terminal.transcript.toList = since.flatMap Exchange.bytes := by
  induction h with
  | start =>
      refine ⟨[], [], rfl, ?_, ?_, ?_⟩
      · intro e he
        cases he
      · intro e he
        cases he
      · rw [hs]
        rfl
  | @turn log t u e _ _ hexchange ih =>
      by_cases hflushes : e.word.Flushes
      · refine ⟨log ++ [e], [], (List.append_nil _).symm, ?_, ?_, ?_⟩
        · intro e' he'
          rw [List.getLast?_concat] at he'
          cases he'
          exact hflushes
        · intro e' he'
          cases he'
        · rw [hexchange.transcript, Exchange.events, decide_eq_true hflushes, Event.exchange_true,
            ← List.append_assoc, Event.unflushed_flushed]
          rfl
      · obtain ⟨earlier, since, rfl, hearlier, hsince, hheld⟩ := ih
        refine ⟨earlier, since ++ [e], List.append_assoc _ _ _, hearlier, ?_, ?_⟩
        · intro e' he'
          obtain hbefore | hlast := List.mem_append.1 he'
          · exact hsince e' hbefore
          · rw [List.mem_singleton.1 hlast]
            exact hflushes
        · rw [hexchange.transcript, Exchange.events, decide_eq_false hflushes,
            Event.unflushed_exchange_false, hheld, List.flatMap_append, List.flatMap_singleton]

/-! ## Where characters are asked for -/

/-- A character that has been asked for by the end of a turn was asked for in it or before. -/
theorem asks_or_prefix (hrunning : t.machine.processor.running = true)
    (hlimit : settings.options.exhausted? t.steps = none)
    (hread : before ++ [.read code] <+:
      (Exec.left (Exec.cycle settings.instructions) t.machine).terminal.transcript.toList) :
    t.Asks settings before code ∨
      before ++ [.read code] <+: t.machine.terminal.transcript.toList := by
  obtain ⟨asked, bytes, flushes, hleft⟩ :=
    Exec.transcript_of_left settings.instructions t.machine
  obtain hwithin | hearlier := List.prefix_or_prefix_of_prefix ⟨_, hleft.symm⟩ hread
  · obtain hlast | hwithin := List.prefix_concat_iff.1 hwithin
    · rw [hlast]
      exact .inr List.prefix_rfl
    · exact .inl ⟨hrunning, hlimit, hwithin, hread⟩
  · exact .inr hearlier

/-- A character that has been asked for in some turns was asked for in one of them. -/
theorem Logs.exists_asks (h : s.Logs settings log t)
    (hs : s.machine.terminal.transcript.toList = [])
    (hread : before ++ [.read code] <+: t.machine.terminal.transcript.toList) :
    ∃ n v, s.after settings n = some v ∧ v.Asks settings before code := by
  induction h with
  | start =>
      rw [hs, List.prefix_nil] at hread
      exact absurd hread (List.append_ne_nil_of_right_ne_nil _ (List.cons_ne_nil _ _))
  | @turn log t u e hlog hturn hexchange ih =>
      obtain ⟨hrunning, hlimit, -⟩ := turn_eq_next_iff.1 hturn
      rw [← Exec.left_of_ok hexchange.cycle] at hread
      obtain hasks | hearlier := asks_or_prefix hrunning hlimit hread
      · exact ⟨log.length, t, hlog.after, hasks⟩
      · exact ih hearlier

/-- The turn that ends the run may have asked for it, too. -/
theorem Logs.exists_asks_of_ends (h : s.Logs settings log t)
    (hs : s.machine.terminal.transcript.toList = []) {ending : Ending}
    (hends : t.Ends settings ending u)
    (hread : before ++ [.read code] <+: u.machine.terminal.transcript.toList) :
    ∃ n v, s.after settings n = some v ∧ v.Asks settings before code := by
  have hturn : t.machine.processor.running = true → settings.options.exhausted? t.steps = none →
      before ++ [.read code] <+:
        (Exec.left (Exec.cycle settings.instructions) t.machine).terminal.transcript.toList →
      ∃ n v, s.after settings n = some v ∧ v.Asks settings before code := by
    intro hrunning hlimit hread
    obtain hasks | hearlier := asks_or_prefix hrunning hlimit hread
    · exact ⟨log.length, t, h.after, hasks⟩
    · exact h.exists_asks hs hearlier
  cases hends with
  | halted _ => exact h.exists_asks hs hread
  | exhausted _ _ => exact h.exists_asks hs hread
  | faulted hrunning hlimit hcycle =>
      apply hturn hrunning hlimit
      rw [Exec.left_of_error hcycle]
      exact hread
  | interrupted hrunning hlimit hcycle =>
      apply hturn hrunning hlimit
      rw [Exec.left_of_error hcycle]
      exact hread

end Session

/-! ## Whole runs -/

/-- A word that writes and pushes out nothing is one of the two traps for single characters. -/
theorem Machine.Emits.isTrap_of_not_flushes {m : Machine} {w : Word} {bytes : List Byte}
    (h : m.Emits w bytes) (hflushes : ¬ w.Flushes) (hbytes : bytes ≠ []) :
    w.IsTrap 0x21 ∨ w.IsTrap 0x23 := by
  cases h with
  | out trap => exact .inl trap
  | readEcho trap => exact .inr trap
  | puts trap _ => exact absurd ⟨_, by decide, trap⟩ hflushes
  | putsp trap _ => exact absurd ⟨_, by decide, trap⟩ hflushes
  | silent _ => exact absurd rfl hbytes

/-- **What is held back when a character is asked for**, by whatever instruction.  The bytes that
have been written before and not been pushed out are those of the completed steps since the last one
that pushed out; of these steps only the two traps for single characters can have written them.
And every character that a run asks for is asked for in this way. -/
theorem run_prompts {settings : Settings} {program : Program} {bytes : List Byte}
    {policy : EndOfInput} {journal : Journal} {s : Session}
    (hs : program.session? settings.sorted.options (.console bytes policy) journal = some s) :
    (∀ n t before code, s.after settings.sorted n = some t → t.Asks settings.sorted before code →
      ∃ earlier since, s.Logs settings.sorted (earlier ++ since) t ∧
        (earlier ++ since).length = n ∧ (∀ e ∈ earlier.getLast?, e.word.Flushes) ∧
        (∀ e ∈ since, ¬ e.word.Flushes ∧
          (e.bytes ≠ [] → e.word.IsTrap 0x21 ∨ e.word.IsTrap 0x23)) ∧
        Event.unflushed before = since.flatMap Exchange.bytes) ∧
    ∀ fuel c before code, run fuel settings program (.console bytes policy) journal = some c →
      before ++ [.read code] <+: c.terminal.transcript.toList →
      ∃ n t, s.after settings.sorted n = some t ∧ t.Asks settings.sorted before code := by
  have hempty : s.machine.terminal.transcript.toList = [] := by
    rw [Session.terminal_of_session? hs]
    rfl
  constructor
  · intro n t before code hafter hasks
    obtain ⟨log, hlog, hlength⟩ := Session.exists_logs hafter
    obtain ⟨earlier, since, rfl, hearlier, hsince, hheld⟩ := hlog.unflushed hempty
    refine ⟨earlier, since, hlog, hlength, hearlier, fun e he => ⟨hsince e he, ?_⟩, ?_⟩
    · obtain ⟨m, m', hexchange⟩ := hlog.exchange_of_mem (List.mem_append_right earlier he)
      exact hexchange.emits.isTrap_of_not_flushes (hsince e he)
    · rw [hasks.before_eq, hheld]
  · intro fuel c before code hrun hread
    obtain ⟨n, t, ending, u, -, hafter, hends, rfl⟩ := (run_eq_some_iff hs).1 hrun
    obtain ⟨log, hlog, -⟩ := Session.exists_logs hafter
    have htranscript : ((u.close ending).conclusion settings.sorted.options
        ending).terminal.transcript.toList = u.machine.terminal.transcript.toList ++ [.flushed] :=
      Terminal.transcript_flush _
    rw [htranscript] at hread
    obtain hlast | hwithin := List.prefix_concat_iff.1 hread
    · -- what the run does last is no read
      cases List.append_inj_right' hlast rfl
    · exact hlog.exists_asks_of_ends hempty hends hwithin

/-- A program that takes a character, writes it, waits for another one and halts. -/
def Program.prompting : Program := .image ⟨0x3000, [0xF020, 0xF021, 0xF023, 0xF025]⟩

/-- The first character is held back when the second one is asked for. -/
theorem run_prompts_prompting :
    ∃ s t earlier since,
      Program.prompting.session? (Settings.sorted {}).options (.console [0x41, 0x42] .sentinel)
        ⟨.error, #[]⟩ = some s ∧
      s.after (Settings.sorted {}) 2 = some t ∧
      t.Asks (Settings.sorted {}) [.read (some 0x41), .flushed, .wrote 0x41] (some 0x42) ∧
      s.Logs (Settings.sorted {}) (earlier ++ since) t ∧ (earlier ++ since).length = 2 ∧
      (∀ e ∈ since, ¬ e.word.Flushes) ∧ since.flatMap Exchange.bytes = [0x41] := by
  obtain ⟨s, hs⟩ : ∃ s, Program.prompting.session? (Settings.sorted {}).options
      (.console [0x41, 0x42] .sentinel) ⟨.error, #[]⟩ = some s := ⟨_, rfl⟩
  obtain ⟨t, hafter⟩ : ∃ t, s.after (Settings.sorted {}) 2 = some t := by
    cases hs
    exact ⟨_, rfl⟩
  have hasks : t.Asks (Settings.sorted {}) [.read (some 0x41), .flushed, .wrote 0x41]
      (some 0x42) := by
    cases hs
    cases hafter
    exact ⟨rfl, rfl, ⟨[], rfl⟩, ⟨[.wrote 0x42], rfl⟩⟩
  obtain ⟨earlier, since, hlog, hlength, -, hsince, hheld⟩ :=
    (run_prompts hs).1 2 t _ _ hafter hasks
  exact ⟨s, t, earlier, since, hs, hafter, hasks, hlog, hlength, fun e he => (hsince e he).1,
    hheld.symm⟩

/-- **Bytes can be held back when a character is asked for.** -/
theorem held_back_at_read :
    ∃ s t,
      Program.prompting.session? (Settings.sorted {}).options (.console [0x41, 0x42] .sentinel)
        ⟨.error, #[]⟩ = some s ∧
      s.after (Settings.sorted {}) 2 = some t ∧
      t.Asks (Settings.sorted {}) [.read (some 0x41), .flushed, .wrote 0x41] (some 0x42) ∧
      Event.unflushed [.read (some 0x41), .flushed, .wrote 0x41] ≠ [] := by
  refine ⟨_, _, rfl, rfl, ⟨rfl, rfl, ⟨[], rfl⟩, ⟨[.wrote 0x42], rfl⟩⟩, ?_⟩
  decide

end LittleComputer
