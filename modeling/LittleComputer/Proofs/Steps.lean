import LittleComputer.Proofs.Runs

/-!
# Steps of the machine

Where it is known what the next instructions do, a run can be followed step by step without looking
at anything but the machine.

* `Machine.Steps` — `n` completed cycles of running machines, composed by `Machine.Steps.trans`;
  they keep what single cycles keep (`Machine.Steps.closed`).
* `Options.Allows` — the options allow a run so many steps.
* `Session.after_of_steps`, `run_of_halted`, `run_of_fault` — a run that is allowed them takes these
  steps, and ends where they lead to a machine that goes no further.
-/

namespace LittleComputer

/-! ## Sequences of cycles -/

namespace Machine

/-- `Steps instructions n m m'` : `n` cycles, each completed by a machine that was running, lead
from `m` to `m'`. -/
inductive Steps (instructions : InstructionSet) : Nat → Machine → Machine → Prop
  /-- No cycle. -/
  | refl (m : Machine) : Steps instructions 0 m m
  /-- One cycle, and then the others. -/
  | next {n : Nat} {m m₁ m' : Machine} {w : Word} (running : m.processor.running = true)
      (cycle : Exec.cycle instructions m = .ok w m₁) (rest : Steps instructions n m₁ m') :
      Steps instructions (n + 1) m m'

namespace Steps

variable {instructions : InstructionSet} {m m₁ m' : Machine}

theorem one {w : Word} (running : m.processor.running = true)
    (cycle : Exec.cycle instructions m = .ok w m') : Steps instructions 1 m m' :=
  .next running cycle (.refl m')

/-- Steps are taken one after the other. -/
theorem trans {n k : Nat} (h : Steps instructions n m m₁) (h' : Steps instructions k m₁ m') :
    Steps instructions (n + k) m m' := by
  induction h with
  | refl m =>
      rw [Nat.zero_add]
      exact h'
  | @next n m m₁ m₂ w hrunning hcycle _ ih =>
      rw [Nat.add_right_comm]
      exact .next hrunning hcycle (ih h')

/-- What cycles keep, sequences of them keep. -/
theorem closed {P : Machine → Prop} (hP : Closed P) {n : Nat} (h : Steps instructions n m m')
    (hm : P m) : P m' := by
  induction h with
  | refl m => exact hm
  | @next n m m₁ m' w _ hcycle _ ih =>
      have hkept := Exec.keeps_cycle hP instructions m hm
      rw [Exec.left_of_ok hcycle] at hkept
      exact ih hkept

end Steps

end Machine

/-! ## Runs -/

/-- The options allow `n` steps: they set no limit, or none below that. -/
def Options.Allows (o : Options) (n : Nat) : Prop := ∀ limit, o.maxSteps = some limit → n ≤ limit

/-- Without a limit any number of steps is allowed, -/
theorem Options.allows_of_maxSteps {o : Options} (h : o.maxSteps = none) (n : Nat) :
    o.Allows n := by
  intro limit hlimit
  rw [h] at hlimit
  cases hlimit

/-- and no number of them exhausts it. -/
theorem Options.exhausted?_of_maxSteps {o : Options} (h : o.maxSteps = none) (steps : Nat) :
    o.exhausted? steps = none := by
  rw [exhausted?, h]

/-- Before the last step that is allowed the limit is not reached. -/
theorem Options.exhausted?_of_allows {o : Options} {n steps : Nat} (h : o.Allows n)
    (hlt : steps < n) : o.exhausted? steps = none := by
  unfold exhausted?
  split
  · rename_i limit hlimit
    have hle := h limit hlimit
    rw [if_neg (by omega)]
  · rfl

/-- **A session takes the steps of its machine** that it is allowed. -/
theorem Session.after_of_steps {settings : Settings} {n : Nat} {m m' : Machine}
    (h : m.Steps settings.instructions n m') {s : Session} (hs : s.machine = m)
    (hallows : settings.options.Allows (s.steps + n)) :
    ∃ t, s.after settings n = some t ∧ t.machine = m' := by
  induction h generalizing s with
  | refl m => exact ⟨s, rfl, hs⟩
  | @next n m m₁ m' w hrunning hcycle _ ih =>
      subst hs
      have hlimit := Options.exhausted?_of_allows hallows (Nat.lt_add_of_pos_right (Nat.succ_pos n))
      obtain ⟨u, hturn, hu⟩ : ∃ u, s.turn settings = .next u ∧ u.machine = m₁ :=
        ⟨_, turn_eq_next_iff.2 ⟨hrunning, hlimit, _, _, hcycle, rfl⟩, rfl⟩
      have hrest : settings.options.Allows (u.steps + n) := by
        rwa [steps_of_next hturn, Nat.add_assoc, Nat.add_comm 1 n]
      obtain ⟨t, ht, hm⟩ := ih hu hrest
      exact ⟨t, after_succ_eq_some_iff.2 ⟨u, hturn, ht⟩, hm⟩

/-- `c.Leaves n m error` : the run has completed `n` steps and left the machine `m`, with this
error. -/
structure Conclusion.Leaves (c : Conclusion) (n : Nat) (m : Machine) (error : Option Report) :
    Prop where
  /-- Its terminal is that of the machine, pushed out. -/
  terminal : c.terminal = m.terminal.flush
  /-- It has a result, which shows the machine. -/
  result : ∃ r, c.result = some r ∧ r.steps = n ∧ r.final = m.processor ∧
    r.output = m.terminal.output ∧ r.error = error

/-- A machine that has halted is not running any more. -/
theorem Processor.running_of_halted {p : Processor} (h : p.status = .halted) :
    p.running = false := by
  rw [running, h]
  rfl

/-- The result of a run that has left a halted machine. -/
theorem Conclusion.Leaves.halted {c : Conclusion} {n : Nat} {m : Machine} (h : c.Leaves n m none)
    (hhalted : m.processor.status = .halted) :
    ∃ r, c.result = some r ∧ r.status = "ok" ∧ r.final.status = .halted ∧ r.steps = n ∧
      r.final = m.processor ∧ r.output = m.terminal.output := by
  obtain ⟨r, hr, hsteps, hfinal, houtput, herror⟩ := h.result
  refine ⟨r, hr, ?_, ?_, hsteps, hfinal, houtput⟩
  · rw [Result.status, herror]
    rfl
  · rw [hfinal, hhalted]

section Programs

variable {settings : Settings} {program : Program} {terminal : Terminal} {journal : Journal}
  {s : Session} {n fuel : Nat} {m m' : Machine}

/-- The first session of a program takes the steps of its machine that it is allowed. -/
theorem Session.after_of_session? (hallows : settings.options.Allows n)
    (hs : program.session? settings.sorted.options terminal journal = some s)
    (h : s.machine.Steps settings.instructions n m) :
    ∃ t, s.after settings.sorted n = some t ∧ t.machine = m ∧ t.steps = n := by
  have hzero := steps_of_session? hs
  have hallows' : settings.sorted.options.Allows (s.steps + n) := by
    rw [hzero, Nat.zero_add]
    exact hallows
  have hsteps : s.machine.Steps settings.sorted.instructions n m := h
  obtain ⟨t, hafter, hm⟩ := after_of_steps hsteps rfl hallows'
  refine ⟨t, hafter, hm, ?_⟩
  rw [steps_after hafter, hzero, Nat.zero_add]

/-- **A run that halts**: steps that lead to a machine which is not running any more are all of
it.  A limit that allows them makes no difference. -/
theorem run_of_halted_of_allows (hallows : settings.options.Allows n)
    (hs : program.session? settings.sorted.options terminal journal = some s)
    (h : s.machine.Steps settings.instructions n m) (hstopped : m.processor.running = false)
    (hfuel : n < fuel) :
    ∃ t c, s.after settings.sorted n = some t ∧ t.machine = m ∧
      t.Ends settings.sorted .halted t ∧
      run fuel settings program terminal journal = some c ∧ c.Leaves n m none := by
  obtain ⟨t, hafter, rfl, hsteps⟩ := Session.after_of_session? hallows hs h
  have hends : t.Ends settings.sorted .halted t := .halted hstopped
  refine ⟨t, _, hafter, rfl, hends,
    (run_eq_some_iff hs).2 ⟨n, t, _, _, hfuel, hafter, hends, rfl⟩, rfl, _, rfl, hsteps, rfl, ?_,
    rfl⟩
  exact Terminal.output_flush t.machine.terminal

theorem run_of_halted (hlimit : settings.options.maxSteps = none)
    (hs : program.session? settings.sorted.options terminal journal = some s)
    (h : s.machine.Steps settings.instructions n m) (hstopped : m.processor.running = false)
    (hfuel : n < fuel) :
    ∃ c, run fuel settings program terminal journal = some c ∧ c.Leaves n m none := by
  obtain ⟨t, c, -, -, -, hc⟩ :=
    run_of_halted_of_allows (Options.allows_of_maxSteps hlimit n) hs h hstopped hfuel
  exact ⟨c, hc⟩

/-- **A run that fails**: steps that lead to a fault are all of it. -/
theorem run_of_fault (hlimit : settings.options.maxSteps = none)
    (hs : program.session? settings.sorted.options terminal journal = some s)
    (h : s.machine.Steps settings.instructions n m) (hrunning : m.processor.running = true)
    {cause : Fault} (hcycle : Exec.cycle settings.instructions m = .error (.fault cause) m')
    (hfuel : n < fuel) :
    ∃ c, run fuel settings program terminal journal = some c ∧
      c.Leaves n { m' with processor := { m'.processor with status := .faulted } }
        (some { kind := cause.kind, message := cause.message, step := n,
                addr := m.processor.pc.toNat, instr := m'.processor.ir }) := by
  have hlimit' : settings.sorted.options.maxSteps = none := hlimit
  obtain ⟨t, hafter, rfl, hsteps⟩ :=
    Session.after_of_session? (Options.allows_of_maxSteps hlimit n) hs h
  have hends : t.Ends settings.sorted _ _ :=
    .faulted hrunning (Options.exhausted?_of_maxSteps hlimit' t.steps) hcycle
  refine ⟨_, (run_eq_some_iff hs).2 ⟨n, t, _, _, hfuel, hafter, hends, rfl⟩, rfl,
    _, rfl, hsteps, rfl, Terminal.output_flush m'.terminal, ?_⟩
  rw [← hsteps]
  rfl

end Programs

end LittleComputer
