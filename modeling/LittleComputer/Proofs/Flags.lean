import LittleComputer.Proofs.Reports

/-!
# What the flags remember

The flags tell of a value that may be gone: they are those of the last result of an instruction that
sets them, whatever has become of the register that it was written to.

* `Opcode.setsFlags`, `Machine.flagged?` — the instructions that set the flags, and the value they
  set them by.
* `Instruction.cond_of_perform`, `Exec.cond_of_cycle` — **what one step does to the flags**.
* `Session.flagged`, `Session.cond_after` — the values of all steps; the last one is remembered.
* `Machine.takes_or_passes`, `Condition.Single.and_eq_zero_iff` — when a branch is taken, and that
  its opposite is not.
* `run_flags` — **all of this at every point of a run**.
-/

namespace LittleComputer

/-! ## Single steps -/

/-- Whether an instruction sets the flags by its result. -/
def Opcode.setsFlags : Opcode → Bool
  | add | and | not | ld | ldi | ldr | lea => true
  | _ => false

/-- The value by which carrying out `w` has set the flags, if it has: what it has left in its
destination.  `m` is the machine afterwards. -/
def Machine.flagged? (m : Machine) (w : Word) : Option Word :=
  if w.opcode.setsFlags then some (m.processor.register (decode w.toNat).dr) else none

/-- The flags after these values have set them, one after the other. -/
def Condition.remember (c : Condition) (values : List Word) : Condition :=
  (values.getLast?.map ofWord).getD c

theorem Condition.remember_append (c : Condition) (first rest : List Word) :
    c.remember (first ++ rest) = (c.remember first).remember rest := by
  unfold remember
  rw [List.getLast?_append]
  cases rest.getLast? <;> rfl

/-- Routines leave the flags alone. -/
theorem Trap.cond_of_run {routine : Trap} {m m' : Machine} {u : Unit}
    (h : routine.run m = .ok u m') : m'.processor.cond = m.processor.cond := by
  cases routine with
  | out | halt =>
      cases h
      rfl
  | getc =>
      rw [run_getc, Exec.bind_finish_eq_ok] at h
      obtain ⟨code, m₁, hread, -, rfl⟩ := h
      obtain ⟨t, -, rfl⟩ := Exec.readChar_cases hread
      rfl
  | readEcho =>
      rw [run_readEcho, Exec.bind_finish_eq_ok] at h
      obtain ⟨code, m₁, hread, -, rfl⟩ := h
      obtain ⟨t, -, rfl⟩ := Exec.readChar_cases hread
      rfl
  | puts =>
      rw [run_puts, Exec.bind_finish_eq_ok] at h
      obtain ⟨words, m₁, hstring, -, rfl⟩ := h
      obtain ⟨-, rfl⟩ := Exec.string_cases hstring
      rfl
  | putsp =>
      rw [run_putsp, Exec.bind_finish_eq_ok] at h
      obtain ⟨words, m₁, hstring, -, rfl⟩ := h
      obtain ⟨-, rfl⟩ := Exec.string_cases hstring
      rfl

/-- **Instructions set the flags by what they leave in their destination**, or leave them alone. -/
theorem Instruction.cond_of_perform {i : Instruction} {op : Opcode} {m m' : Machine}
    {target : Option Int} (h : i.perform op m = .ok target m') :
    m'.processor.cond =
      if op.setsFlags then .ofWord (m'.processor.register i.dr) else m.processor.cond := by
  cases op with
  | add =>
      rw [perform_add] at h
      cases h
      rfl
  | and =>
      rw [perform_and] at h
      cases h
      rfl
  | not | lea | jmp | st | str =>
      cases h
      rfl
  | br =>
      rw [perform_br] at h
      cases h
      rfl
  | jsr =>
      rw [perform_jsr] at h
      cases h
      rfl
  | rti | res => cases h
  | ld =>
      rw [perform_ld, Exec.bind_finish_eq_ok] at h
      obtain ⟨w, m₁, -, -, rfl⟩ := h
      rfl
  | ldr =>
      rw [perform_ldr, Exec.bind_finish_eq_ok] at h
      obtain ⟨w, m₁, -, -, rfl⟩ := h
      rfl
  | ldi =>
      rw [perform_ldi, Exec.bind_eq_ok] at h
      obtain ⟨pointer, m₁, -, h⟩ := h
      rw [Exec.bind_finish_eq_ok] at h
      obtain ⟨w, m₂, -, -, rfl⟩ := h
      rfl
  | sti =>
      rw [perform_sti, Exec.bind_finish_eq_ok] at h
      obtain ⟨pointer, m₁, hload, -, rfl⟩ := h
      show m₁.processor.cond = m.processor.cond
      rw [Exec.processor_load hload]
  | trap =>
      obtain ⟨-, routine, -, hrun⟩ := trap_cases h
      exact Trap.cond_of_run hrun

namespace Exec

variable {instructions : InstructionSet} {m m' : Machine} {w : Word} {e : Stop}

/-- **What a completed cycle does to the flags.** -/
theorem cond_of_cycle (h : cycle instructions m = .ok w m') :
    m'.processor.cond = m.processor.cond.remember (m'.flagged? w).toList := by
  obtain ⟨-, -, -, target, m₁, hperform, rfl⟩ := cycle_ok_cases h
  rw [Machine.cond_jumpTo, Instruction.cond_of_perform hperform, Machine.flagged?,
    Processor.register, Processor.register, Machine.registers_jumpTo]
  cases w.opcode.setsFlags <;> rfl

/-- A cycle that stops leaves the flags alone. -/
theorem cond_of_cycle_error (h : cycle instructions m = .error e m') :
    m'.processor.cond = m.processor.cond := by
  obtain ⟨-, hm'⟩ | ⟨w, m₁, -, hm', -⟩ := processor_of_cycle_error h <;> rw [hm']

end Exec

/-! ## Whole runs -/

namespace Session

variable {settings : Settings} {s t : Session}

/-- The values by which the first `n` turns have set the flags, oldest first. -/
def flagged (settings : Settings) : (n : Nat) → Session → List Word
  | 0, _ => []
  | n + 1, s =>
    match s.turn settings with
    | .next t => (t.machine.flagged? s.machine.current).toList ++ flagged settings n t
    | _ => []

/-- A completed turn sets the flags by its value, if it has one. -/
theorem cond_of_next (h : s.turn settings = .next t) :
    t.machine.processor.cond =
      s.machine.processor.cond.remember (t.machine.flagged? s.machine.current).toList := by
  obtain ⟨-, -, w, m, hcycle, rfl⟩ := turn_eq_next_iff.1 h
  obtain ⟨-, rfl, -⟩ := Exec.cycle_ok_cases hcycle
  exact Exec.cond_of_cycle hcycle

/-- **The flags remember the last value** that has set them. -/
theorem cond_after {n : Nat} (h : after settings n s = some t) :
    t.machine.processor.cond = s.machine.processor.cond.remember (s.flagged settings n) := by
  induction n generalizing s with
  | zero =>
      cases h
      rfl
  | succ n ih =>
      obtain ⟨u, hturn, hrest⟩ := after_succ_eq_some_iff.1 h
      rw [ih hrest, cond_of_next hturn, flagged, hturn, Condition.remember_append]

/-- The turn that ends a run leaves the flags alone. -/
theorem cond_of_ends {ending : Ending} (h : Ends settings s ending t) :
    t.machine.processor.cond = s.machine.processor.cond := by
  cases h with
  | halted _ => rfl
  | exhausted _ _ => rfl
  | faulted _ _ hcycle => exact (Exec.cond_of_cycle_error hcycle :)
  | interrupted _ _ hcycle => exact Exec.cond_of_cycle_error hcycle

end Session

/-! ## Opposite branches -/

/-- The machine takes the branch `w` when it has fetched it. -/
def Machine.Takes (instructions : InstructionSet) (m : Machine) (w : Word) : Prop :=
  ∃ target m', (decode w.toNat).execute instructions (m.advance w) = .ok (some target) m'

/-- The machine passes the branch `w` when it has fetched it. -/
def Machine.Passes (instructions : InstructionSet) (m : Machine) (w : Word) : Prop :=
  ∃ m', (decode w.toNat).execute instructions (m.advance w) = .ok none m'

/-- A branch is passed if none of the flags that it asks for is set, and taken otherwise. -/
theorem Machine.takes_or_passes {instructions : InstructionSet} {m : Machine} {w : Word}
    (hset : instructions .br = true) (hop : w.opcode = .br) :
    if w.extractLsb' 9 3 &&& m.processor.cond = 0 then m.Passes instructions w
    else m.Takes instructions w := by
  have hexec : (decode w.toNat).execute instructions (m.advance w) =
      (decode w.toNat).perform .br (m.advance w) := by
    rw [Instruction.execute_decode, hop, if_pos hset]
  rw [Instruction.perform_br, Instruction.nzp_decode] at hexec
  have hflags : (m.advance w).processor.cond = m.processor.cond := rfl
  rw [hflags] at hexec
  split at hexec
  · rename_i hnone
    rw [if_pos hnone]
    exact ⟨_, hexec⟩
  · rename_i hsome
    rw [if_neg hsome]
    exact ⟨_, _, hexec⟩

/-- Of two masks that make up all three flags, one has the only flag that is set. -/
theorem Condition.Single.and_eq_zero_iff {c : Condition} (hc : c.Single) :
    ∀ mask mask' : BitVec 3, mask.toNat + mask'.toNat = 7 →
      (mask &&& c = 0 ↔ ¬ mask' &&& c = 0) := by
  obtain rfl | rfl | rfl := hc <;> decide

/-- What a machine is like whose flags have been set by these values, oldest first. -/
structure Machine.Remembers (m : Machine) (instructions : InstructionSet) (values : List Word) :
    Prop where
  /-- The flags are those of the last value; without one the zero flag is set. -/
  cond : m.processor.cond = Condition.zero.remember values
  /-- Of two branches whose masks make up all three flags, one is taken and the other is passed. -/
  branches : instructions .br = true → ∀ w w' : Word, w.opcode = .br → w'.opcode = .br →
    (w.extractLsb' 9 3).toNat + (w'.extractLsb' 9 3).toNat = 7 →
    (m.Takes instructions w ∧ m.Passes instructions w') ∨
      (m.Passes instructions w ∧ m.Takes instructions w')

/-- Flags that remember values are single, so a branch or its opposite is taken. -/
theorem Machine.remembers_of_cond {m : Machine} {values : List Word}
    (h : m.processor.cond = Condition.zero.remember values) (instructions : InstructionSet) :
    m.Remembers instructions values where
  cond := h
  branches hset w w' hop hop' hmasks := by
    have hsingle : m.processor.cond.Single := by
      rw [h, Condition.remember]
      cases values.getLast? with
      | none => exact .inr (.inl rfl)
      | some value => exact Condition.ofWord_cases value
    have hiff := hsingle.and_eq_zero_iff _ _ hmasks
    have hfirst := takes_or_passes (m := m) hset hop
    have hsecond := takes_or_passes (m := m) hset hop'
    by_cases hzero : w.extractLsb' 9 3 &&& m.processor.cond = 0
    · rw [if_pos hzero] at hfirst
      rw [if_neg (hiff.1 hzero)] at hsecond
      exact .inr ⟨hfirst, hsecond⟩
    · rw [if_neg hzero] at hfirst
      rw [if_pos (not_not.1 (mt hiff.2 hzero))] at hsecond
      exact .inl ⟨hfirst, hsecond⟩

/-! ## Programs -/

/-- The values by which the first `n` steps of a program set the flags, oldest first.  What is no
image has no steps. -/
def Program.flagged (program : Program) (settings : Settings) (terminal : Terminal)
    (journal : Journal) (n : Nat) : List Word :=
  match program.session? settings.sorted.options terminal journal with
  | some s => s.flagged settings.sorted n
  | none => []

/-- **The flags remember.**  At every point of a run and at its end, the flags are those of the last
value that a completed step has set them by, whatever has happened since; and of two opposite
branches exactly one would be taken there. -/
theorem run_flags (settings : Settings) (program : Program) (terminal : Terminal)
    (journal : Journal) :
    (∀ s n t, program.session? settings.sorted.options terminal journal = some s →
      s.after settings.sorted n = some t →
      t.machine.Remembers settings.instructions
          (program.flagged settings terminal journal n) ∧
        ∀ ending u, t.Ends settings.sorted ending u → u.machine.Remembers settings.instructions
          (program.flagged settings terminal journal n)) ∧
    ∀ fuel c r, run fuel settings program terminal journal = some c → c.result = some r →
      r.final.cond =
        Condition.zero.remember (program.flagged settings terminal journal r.steps) := by
  have hsessions : ∀ s n t, program.session? settings.sorted.options terminal journal = some s →
      s.after settings.sorted n = some t → t.machine.processor.cond =
        Condition.zero.remember (program.flagged settings terminal journal n) := by
    intro s n t hs hafter
    have hfirst : s.machine.processor.cond = .zero := by
      obtain ⟨image, journal', rfl⟩ := Program.session?_cases hs
      rfl
    rw [Program.flagged, hs, Session.cond_after hafter, hfirst]
  refine ⟨fun s n t hs hafter => ?_, fun fuel c r hrun hr => ?_⟩
  · have hcond := hsessions s n t hs hafter
    refine ⟨Machine.remembers_of_cond hcond _, fun ending u hends => ?_⟩
    exact Machine.remembers_of_cond ((Session.cond_of_ends hends).trans hcond) _
  · cases hs : program.session? settings.sorted.options terminal journal with
    | none =>
        obtain ⟨e, journal', hnothing⟩ := run_of_session?_eq_none hs
        rw [hnothing] at hrun
        cases hrun
        cases hr
        rw [Program.flagged, hs]
        rfl
    | some s =>
        obtain ⟨n, t, ending, u, -, hafter, hends, rfl⟩ := (run_eq_some_iff hs).1 hrun
        have hsteps : u.steps = n := by
          rw [hends.steps_eq, Session.steps_after hafter, Session.steps_of_session? hs,
            Nat.zero_add]
        have hcond := (Session.cond_of_ends hends).trans (hsessions s n t hs hafter)
        rw [← hsteps] at hcond
        obtain ⟨-, rfl⟩ | ⟨report, -, rfl⟩ := Session.result?_cases hr <;> exact hcond

/-- A program that makes a register negative, overwrites it with a character and asks for the
sign. -/
def Program.overwriting : Program := .image ⟨0x3000, [0x103F, 0xF020, 0x0801, 0xF025, 0xF025]⟩

theorem run_flags_overwriting :
    ∃ s t, Program.overwriting.session? ({} : Settings).sorted.options (.buffer [65] .sentinel)
        ⟨.error, #[]⟩ = some s ∧
      s.after ({} : Settings).sorted 2 = some t ∧ t.machine.processor.register .r0 = 65 ∧
      t.machine.processor.cond = .negative ∧
      t.machine.Takes .complete 0x0801 ∧ t.machine.Passes .complete 0x0601 := by
  obtain ⟨hpoints, -⟩ := run_flags {} Program.overwriting (.buffer [65] .sentinel) ⟨.error, #[]⟩
  obtain ⟨⟨hcond, hbranches⟩, -⟩ := hpoints _ 2 _ rfl rfl
  obtain hbranch | ⟨⟨m', hpasses⟩, -⟩ :=
    hbranches rfl 0x0801 0x0601 (by decide) (by decide) (by decide)
  · exact ⟨_, _, rfl, rfl, rfl, hcond, hbranch⟩
  · cases hpasses

end LittleComputer
