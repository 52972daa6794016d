import LittleComputer.Proofs.Invariants
import LittleComputer.Run

/-!
# Runs as sequences of turns

A run is a sequence of completed turns and then one that ends it, or that never ends.  Fuel only
bounds how long the sequence may be.

* `Session.turn_eq_next_iff`, `Session.turn_eq_endless_iff`, `Session.turn_eq_over_iff` — what one
  turn can come to, with the ways in which it can end a run in `Session.Ends`.
* `Session.after` — the session after so many completed turns; `Session.runFor_eq_some_iff` and
  `Session.runFor_eq_none_iff` say what `runFor` has to do with it.
* `Session.steps_after`, `Session.trace_after` — one step and, if asked for, one row a turn.
* `Session.closed_after`, `Session.closed_runFor` — closed properties of machines hold all along.
* `Program.session?`, `run_of_session?` — a run of a program is a run of its first session.
* `run_cases`, `run_mono` — what a run that is over was, whatever its fuel; `result_of_run` — it has
  a result, unless it could be interrupted.
-/

namespace LittleComputer

namespace Session

variable {settings : Settings} {s t : Session}

/-! ## Single turns -/

/-- **A turn is completed** if the machine runs, has steps left, and completes a cycle. -/
theorem turn_eq_next_iff :
    s.turn settings = .next t ↔
      s.machine.processor.running = true ∧ settings.options.exhausted? s.steps = none ∧
        ∃ w m, Exec.cycle settings.instructions s.machine = .ok w m ∧
          t = advance settings.options { s with machine := m } s.machine.processor.pc w := by
  unfold turn
  constructor
  · intro h
    split at h
    · rename_i hrunning
      split at h
      · cases h
      · rename_i hlimit
        dsimp only at h
        split at h
        · rename_i w m hcycle
          cases h
          exact ⟨hrunning, hlimit, w, m, hcycle, rfl⟩
        · cases h
        · cases h
        · cases h
    · cases h
  · rintro ⟨hrunning, hlimit, w, m, hcycle, rfl⟩
    rw [if_pos hrunning, hlimit]
    simp only [hcycle]

/-- **A turn never ends** if the machine runs, has steps left, and its cycle never ends. -/
theorem turn_eq_endless_iff :
    s.turn settings = .endless ↔
      s.machine.processor.running = true ∧ settings.options.exhausted? s.steps = none ∧
        ∃ m, Exec.cycle settings.instructions s.machine = .error .endless m := by
  unfold turn
  constructor
  · intro h
    split at h
    · rename_i hrunning
      split at h
      · cases h
      · rename_i hlimit
        dsimp only at h
        split at h
        · cases h
        · cases h
        · cases h
        · rename_i m hcycle
          exact ⟨hrunning, hlimit, m, hcycle⟩
    · cases h
  · rintro ⟨hrunning, hlimit, m, hcycle⟩
    rw [if_pos hrunning, hlimit]
    simp only [hcycle]

/-- The report on a session that has reached its limit. -/
def limitReport (s : Session) (limit : Int) : Report where
  kind := .stepLimitExceeded
  message := (Fault.stepLimitExceeded limit).message
  step := s.steps
  addr := s.machine.processor.pc.toNat

/-- The report on a session whose next instruction went wrong and left the machine `m`. -/
def faultReport (s : Session) (cause : Fault) (m : Machine) : Report where
  kind := cause.kind
  message := cause.message
  step := s.steps
  addr := s.machine.processor.pc.toNat
  instr := m.processor.ir

/-- The session after it has been stopped for the reason in a report. -/
def failed (s : Session) (report : Report) : Session :=
  { s with
    machine.processor.status := .faulted
    journal := s.journal.add .warning .runner fun _ =>
      report.kind.name ++ " at " ++ Text.address report.addr.toNat ++ ": " ++ report.message }

/-- `Ends settings s ending t` : the next turn of `s` ends the run in this way and leaves `t`. -/
inductive Ends (settings : Settings) (s : Session) : Ending → Session → Prop where
  /-- The machine has halted. -/
  | halted (stopped : s.machine.processor.running = false) : Ends settings s .halted s
  /-- The machine would go on, but its steps are used up. -/
  | exhausted {limit : Int} (running : s.machine.processor.running = true)
      (limited : settings.options.exhausted? s.steps = some limit) :
      Ends settings s (.faulted (s.limitReport limit)) (s.failed (s.limitReport limit))
  /-- The next instruction is a fault. -/
  | faulted {cause : Fault} {m : Machine} (running : s.machine.processor.running = true)
      (unlimited : settings.options.exhausted? s.steps = none)
      (stopped : Exec.cycle settings.instructions s.machine = .error (.fault cause) m) :
      Ends settings s (.faulted (s.faultReport cause m))
        ({ s with machine := m }.failed (s.faultReport cause m))
  /-- The next instruction is interrupted. -/
  | interrupted {m : Machine} (running : s.machine.processor.running = true)
      (unlimited : settings.options.exhausted? s.steps = none)
      (stopped : Exec.cycle settings.instructions s.machine = .error .interrupted m) :
      Ends settings s .interrupted { s with machine := m }

/-- **The ways in which a turn can end a run.** -/
theorem turn_eq_over_iff {ending : Ending} :
    s.turn settings = .over ending t ↔ Ends settings s ending t := by
  constructor
  · intro h
    unfold turn at h
    split at h
    · rename_i hrunning
      split at h
      · rename_i limit hlimit
        cases h
        exact .exhausted hrunning hlimit
      · rename_i hlimit
        dsimp only at h
        split at h
        · cases h
        · rename_i cause m hcycle
          cases h
          exact .faulted hrunning hlimit hcycle
        · rename_i m hcycle
          cases h
          exact .interrupted hrunning hlimit hcycle
        · cases h
    · rename_i hstopped
      cases h
      exact .halted (Bool.eq_false_iff.2 hstopped)
  · intro h
    unfold turn
    cases h with
    | halted hstopped => rw [hstopped]; rfl
    | exhausted hrunning hlimit =>
        rw [if_pos hrunning, hlimit]
        rfl
    | faulted hrunning hlimit hcycle =>
        rw [if_pos hrunning, hlimit]
        simp only [hcycle]
        rfl
    | interrupted hrunning hlimit hcycle =>
        rw [if_pos hrunning, hlimit]
        simp only [hcycle]

/-! ## Sequences of turns -/

/-- The session after `n` turns, if none of them ended the run. -/
def after (settings : Settings) : (n : Nat) → Session → Option Session
  | 0, s => some s
  | n + 1, s =>
    match s.turn settings with
    | .next t => after settings n t
    | _ => none

theorem after_succ_eq_some_iff {n : Nat} {u : Session} :
    after settings (n + 1) s = some u ↔
      ∃ t, s.turn settings = .next t ∧ after settings n t = some u := by
  rw [after]
  constructor
  · intro h
    split at h
    · rename_i t hturn
      exact ⟨t, hturn, h⟩
    · cases h
  · rintro ⟨t, hturn, h⟩
    rw [hturn]
    exact h

/-- Turns are taken one after the other. -/
theorem after_add (m n : Nat) (s : Session) :
    after settings (m + n) s = (after settings m s).bind (after settings n) := by
  induction m generalizing s with
  | zero =>
      rw [Nat.zero_add]
      rfl
  | succ m ih =>
      rw [Nat.succ_add, after, after]
      cases s.turn settings with
      | next t => exact ih t
      | _ => rfl

theorem after_one_eq_some_iff : after settings 1 s = some t ↔ s.turn settings = .next t := by
  rw [after_succ_eq_some_iff]
  constructor
  · rintro ⟨u, hturn, h⟩
    cases h
    exact hturn
  · intro hturn
    exact ⟨t, hturn, rfl⟩

/-- Before the last of some turns there is a session that takes it. -/
theorem after_succ_eq_some_iff' {n : Nat} {u : Session} :
    after settings (n + 1) s = some u ↔
      ∃ t, after settings n s = some t ∧ t.turn settings = .next u := by
  rw [after_add, Option.bind_eq_some_iff]
  simp only [after_one_eq_some_iff]

/-- Every session on the way takes its turn. -/
theorem turn_of_after_lt {m n : Nat} {u : Session} (h : after settings n s = some u) (hlt : m < n) :
    ∃ t v, after settings m s = some t ∧ t.turn settings = .next v := by
  have hsplit : n = (m + 1) + (n - (m + 1)) := by omega
  rw [hsplit, after_add, Option.bind_eq_some_iff] at h
  obtain ⟨v, hv, -⟩ := h
  obtain ⟨t, ht, hturn⟩ := after_succ_eq_some_iff'.1 hv
  exact ⟨t, v, ht, hturn⟩

/-- What holds at first and is kept by every completed turn holds all along. -/
theorem after_induction {I : Session → Prop} {n : Nat} (h : after settings n s = some t)
    (first : I s) (step : ∀ u v, I u → u.turn settings = .next v → I v) : I t := by
  induction n generalizing s with
  | zero =>
      cases h
      exact first
  | succ n ih =>
      obtain ⟨u, hturn, hrest⟩ := after_succ_eq_some_iff.1 h
      exact ih hrest (step s u first hturn)

/-! ## Fuel -/

/-- **What a run that is over has done:** some turns, fewer than it had fuel, and one that ended
it. -/
theorem runFor_eq_some_iff {fuel : Nat} {ending : Ending} {u : Session} :
    runFor settings fuel s = some (ending, u) ↔
      ∃ n t v, n < fuel ∧ after settings n s = some t ∧ t.turn settings = .over ending v ∧
        u = v.close ending := by
  induction fuel generalizing s with
  | zero =>
      constructor
      · intro h
        cases h
      · rintro ⟨n, t, v, hlt, -⟩
        exact absurd hlt (Nat.not_lt_zero n)
  | succ fuel ih =>
      rw [runFor]
      constructor
      · intro h
        split at h
        · rename_i t₁ hturn
          obtain ⟨n, t, v, hlt, hafter, hover, rfl⟩ := ih.1 h
          exact ⟨n + 1, t, v, by omega, after_succ_eq_some_iff.2 ⟨t₁, hturn, hafter⟩, hover, rfl⟩
        · rename_i ending' v hturn
          cases h
          exact ⟨0, s, v, by omega, rfl, hturn, rfl⟩
        · cases h
      · rintro ⟨n, t, v, hlt, hafter, hover, rfl⟩
        cases n with
        | zero =>
            cases hafter
            rw [hover]
        | succ n =>
            obtain ⟨t₁, hturn, hrest⟩ := after_succ_eq_some_iff.1 hafter
            rw [hturn]
            exact ih.2 ⟨n, t, v, by omega, hrest, hover, rfl⟩

/-- **What a run that is not over has done:** it has used up its fuel, or has come to a turn that
never ends. -/
theorem runFor_eq_none_iff {fuel : Nat} :
    runFor settings fuel s = none ↔
      (∃ t, after settings fuel s = some t) ∨
        ∃ n t, n < fuel ∧ after settings n s = some t ∧ t.turn settings = .endless := by
  induction fuel generalizing s with
  | zero =>
      constructor
      · intro _
        exact .inl ⟨s, rfl⟩
      · intro _
        rfl
  | succ fuel ih =>
      rw [runFor]
      constructor
      · intro h
        split at h
        · rename_i t₁ hturn
          obtain ⟨t, ht⟩ | ⟨n, t, hlt, hafter, hendless⟩ := ih.1 h
          · exact .inl ⟨t, after_succ_eq_some_iff.2 ⟨t₁, hturn, ht⟩⟩
          · exact .inr ⟨n + 1, t, by omega, after_succ_eq_some_iff.2 ⟨t₁, hturn, hafter⟩, hendless⟩
        · cases h
        · rename_i hturn
          exact .inr ⟨0, s, by omega, rfl, hturn⟩
      · rintro (⟨t, ht⟩ | ⟨n, t, hlt, hafter, hendless⟩)
        · obtain ⟨t₁, hturn, hrest⟩ := after_succ_eq_some_iff.1 ht
          rw [hturn]
          exact ih.2 (.inl ⟨t, hrest⟩)
        · cases n with
          | zero =>
              cases hafter
              rw [hendless]
          | succ n =>
              obtain ⟨t₁, hturn, hrest⟩ := after_succ_eq_some_iff.1 hafter
              rw [hturn]
              exact ih.2 (.inr ⟨n, t, by omega, hrest, hendless⟩)

/-- Once some turns have been taken, a run is what the session after them makes of the rest of the
fuel. -/
theorem runFor_add {k : Nat} (h : after settings k s = some t) (fuel : Nat) :
    runFor settings (k + fuel) s = runFor settings fuel t := by
  induction k generalizing s with
  | zero =>
      cases h
      rw [Nat.zero_add]
  | succ k ih =>
      obtain ⟨u, hturn, hrest⟩ := after_succ_eq_some_iff.1 h
      rw [Nat.add_right_comm, runFor, hturn]
      exact ih hrest

/-- Settings under which all turns go the same way make no difference to a run. -/
theorem runFor_congr (settings settings' : Settings)
    (h : ∀ s : Session, s.turn settings = s.turn settings') (fuel : Nat) (s : Session) :
    s.runFor settings fuel = s.runFor settings' fuel := by
  induction fuel generalizing s with
  | zero => rfl
  | succ fuel ih =>
      rw [runFor, runFor, h]
      cases s.turn settings' with
      | next t => exact ih t
      | _ => rfl

/-- More fuel does not change how a run ends. -/
theorem runFor_mono {fuel fuel' : Nat} {r : Ending × Session} (h : runFor settings fuel s = some r)
    (hle : fuel ≤ fuel') : runFor settings fuel' s = some r := by
  obtain ⟨n, t, v, hlt, hafter, hover, hu⟩ := runFor_eq_some_iff.1 h
  exact runFor_eq_some_iff.2 ⟨n, t, v, by omega, hafter, hover, hu⟩

/-! ## Steps and rows -/

/-- A completed turn is one step. -/
theorem steps_of_next (h : s.turn settings = .next t) : t.steps = s.steps + 1 := by
  obtain ⟨-, -, w, m, -, rfl⟩ := turn_eq_next_iff.1 h
  rfl

/-- A completed turn adds one row, if rows are asked for. -/
theorem trace_of_next (h : s.turn settings = .next t) :
    ∃ rows : List TraceRow, t.trace.toList = s.trace.toList ++ rows ∧
      rows.length = if settings.options.trace then 1 else 0 := by
  obtain ⟨-, -, w, m, -, rfl⟩ := turn_eq_next_iff.1 h
  unfold advance
  dsimp only
  split
  · exact ⟨[_], Array.toList_push, rfl⟩
  · exact ⟨[], (List.append_nil _).symm, rfl⟩

theorem steps_after {n : Nat} (h : after settings n s = some t) : t.steps = s.steps + n := by
  induction n generalizing s with
  | zero =>
      cases h
      rfl
  | succ n ih =>
      obtain ⟨u, hturn, hrest⟩ := after_succ_eq_some_iff.1 h
      rw [ih hrest, steps_of_next hturn]
      omega

theorem trace_after {n : Nat} (h : after settings n s = some t) :
    ∃ rows : List TraceRow, t.trace.toList = s.trace.toList ++ rows ∧
      rows.length = if settings.options.trace then n else 0 := by
  induction n generalizing s with
  | zero =>
      cases h
      exact ⟨[], (List.append_nil _).symm, by split <;> rfl⟩
  | succ n ih =>
      obtain ⟨u, hturn, hrest⟩ := after_succ_eq_some_iff.1 h
      obtain ⟨first, hfirst, hone⟩ := trace_of_next hturn
      obtain ⟨rest, hlast, hn⟩ := ih hrest
      refine ⟨first ++ rest, by rw [hlast, hfirst, List.append_assoc], ?_⟩
      rw [List.length_append, hone, hn]
      split <;> omega

namespace Ends

variable {ending : Ending}

/-- The turn that ends a run is no step. -/
theorem steps_eq (h : Ends settings s ending t) : t.steps = s.steps := by
  cases h <;> rfl

/-- The turn that ends a run adds no row. -/
theorem trace_eq (h : Ends settings s ending t) : t.trace = s.trace := by
  cases h <;> rfl

/-- Only a terminal that waits at the end of its input lets a run be interrupted. -/
theorem atEnd_eq (h : Ends settings s .interrupted t) : s.machine.terminal.atEnd = .interrupt := by
  cases h with
  | interrupted _ _ hcycle =>
      cases Exec.reason_of_cycle hcycle with
      | interrupted hpolicy => exact hpolicy

end Ends

/-! ## Closed properties -/

section Closed

variable {P : Machine → Prop} (hP : Machine.Closed P)

include hP

theorem closed_of_next (h : s.turn settings = .next t) (hs : P s.machine) : P t.machine := by
  obtain ⟨-, -, w, m, hcycle, rfl⟩ := turn_eq_next_iff.1 h
  have hm := Exec.keeps_cycle hP settings.instructions s.machine hs
  rw [Exec.left_of_ok hcycle] at hm
  exact hm

theorem closed_of_ends {ending : Ending} (h : Ends settings s ending t) (hs : P s.machine) :
    P t.machine := by
  have hleft := Exec.keeps_cycle hP settings.instructions s.machine hs
  cases h with
  | halted _ => exact hs
  | exhausted _ _ => exact hP.setStatus .faulted hs
  | faulted _ _ hcycle =>
      rw [Exec.left_of_error hcycle] at hleft
      exact hP.setStatus .faulted hleft
  | interrupted _ _ hcycle =>
      rw [Exec.left_of_error hcycle] at hleft
      exact hleft

/-- Closed properties hold all along a run. -/
theorem closed_after {n : Nat} (h : after settings n s = some t) (hs : P s.machine) :
    P t.machine :=
  after_induction (I := fun u => P u.machine) h hs fun _ _ hu hturn => closed_of_next hP hturn hu

/-- Closed properties hold at the end of a run. -/
theorem closed_runFor {fuel : Nat} {ending : Ending}
    (h : runFor settings fuel s = some (ending, t)) (hs : P s.machine) : P t.machine := by
  obtain ⟨n, u, v, -, hafter, hover, rfl⟩ := runFor_eq_some_iff.1 h
  exact hP.flush (closed_of_ends hP (turn_eq_over_iff.1 hover) (closed_after hP hafter hs))

end Closed

end Session

/-! ## Programs -/

/-- The settings that a run goes by: its watch list is in order. -/
def Settings.sorted (settings : Settings) : Settings :=
  { settings with options := settings.options.sortWatch }

/-- The session that a run of the program starts with, if the program is an image. -/
def Program.session? (program : Program) (options : Options) (terminal : Terminal)
    (journal : Journal) : Option Session :=
  match program with
  | .image i => some (.start options i terminal journal)
  | .bytes data =>
    match Image.read data journal with
    | (.ok i, journal) => some (.start options i terminal journal)
    | (.error _, _) => none

/-- The image that a program is, or that its bytes stand for. -/
def Program.image? : Program → Option Image
  | .image i => some i
  | .bytes data =>
    match Image.parse data with
    | .ok (i, _) => some i
    | .error _ => none

/-- What is left of a run that has ended with this session. -/
def Session.conclusion (options : Options) (s : Session) (ending : Ending) : Conclusion where
  result := s.result? options ending
  terminal := s.machine.terminal
  journal := s.journal

theorem Session.result?_cases {options : Options} {s : Session} {ending : Ending} {r : Result}
    (h : s.result? options ending = some r) :
    (ending = .halted ∧ r = result?.report options s none) ∨
      ∃ report, ending = .faulted report ∧ r = result?.report options s (some report) := by
  cases ending with
  | halted =>
      cases h
      exact .inl ⟨rfl, rfl⟩
  | faulted report =>
      cases h
      exact .inr ⟨report, rfl, rfl⟩
  | interrupted => cases h

theorem Session.memory_start (options : Options) (image : Image) (terminal : Terminal)
    (journal : Journal) :
    (Session.start options image terminal journal).machine.memory =
      ((Memory.empty.assign options.initialMemory.entries).load image.origin image.words).2 := rfl

section Programs

variable {settings : Settings} {program : Program} {terminal : Terminal} {journal : Journal}
  {s : Session}

theorem Program.session?_cases {options : Options}
    (h : program.session? options terminal journal = some s) :
    ∃ image journal', s = .start options image terminal journal' := by
  unfold session? at h
  split at h
  · rename_i image
    cases h
    exact ⟨image, journal, rfl⟩
  · split at h
    · rename_i image journal' _
      cases h
      exact ⟨image, journal', rfl⟩
    · cases h

/-- Whether there is a first session depends on the program alone: it must be an image. -/
theorem Program.session?_of_image? {image : Image} (h : program.image? = some image)
    (options : Options) (terminal : Terminal) (journal : Journal) :
    ∃ journal', program.session? options terminal journal =
      some (.start options image terminal journal') := by
  cases program with
  | image i =>
      cases h
      exact ⟨journal, rfl⟩
  | bytes data =>
      unfold image? at h
      unfold session? Image.read
      cases hparse : Image.parse data with
      | ok parsed =>
          simp only [hparse] at h ⊢
          cases h
          exact ⟨_, rfl⟩
      | error e => simp [hparse] at h

theorem Program.session?_eq_none (h : program.image? = none) (options : Options)
    (terminal : Terminal) (journal : Journal) :
    program.session? options terminal journal = none := by
  cases program with
  | image i => cases h
  | bytes data =>
      unfold image? at h
      unfold session? Image.read
      cases hparse : Image.parse data with
      | ok parsed => simp [hparse] at h
      | error e => simp only [hparse]

/-- The first session of a program has completed nothing. -/
theorem Session.steps_of_session? {options : Options}
    (h : program.session? options terminal journal = some s) : s.steps = 0 := by
  obtain ⟨image, journal', rfl⟩ := Program.session?_cases h
  rfl

/-- Its terminal has not been used. -/
theorem Session.terminal_of_session? {options : Options}
    (h : program.session? options terminal journal = some s) : s.machine.terminal = terminal := by
  obtain ⟨image, journal', rfl⟩ := Program.session?_cases h
  rfl

/-- A run of an image is a run of its first session. -/
theorem run_of_session? (h : program.session? settings.sorted.options terminal journal = some s)
    (fuel : Nat) :
    run fuel settings program terminal journal =
      (s.runFor settings.sorted fuel).map fun r => r.2.conclusion settings.sorted.options r.1 := by
  have hrun : ∀ image journal, runImage fuel settings image terminal journal =
      ((Session.start settings.sorted.options image terminal journal).runFor settings.sorted
        fuel).map fun r => r.2.conclusion settings.sorted.options r.1 := by
    intro image journal
    generalize hr : (Session.start settings.sorted.options image terminal journal).runFor
      settings.sorted fuel = r
    have hr' : (Session.start settings.options.sortWatch image terminal journal).runFor
        { settings with options := settings.options.sortWatch } fuel = r := hr
    simp only [runImage, hr']
    cases r <;> rfl
  cases program with
  | image i =>
      cases h
      exact hrun i journal
  | bytes data =>
      rcases hread : Image.read data journal with ⟨loaded, journal'⟩
      cases loaded with
      | ok i =>
          simp only [Program.session?, hread, Option.some.injEq] at h
          subst h
          simp only [run, hread]
          exact hrun i journal'
      | error e => simp [Program.session?, hread] at h

/-- Where there is no image, there is nothing to run, and the result says so on every terminal. -/
theorem run_of_session?_eq_none
    (h : program.session? settings.sorted.options terminal journal = none) :
    ∃ e journal', ∀ terminal fuel, run fuel settings program terminal journal =
      some { result := some (unparsed settings.options e), terminal, journal := journal' } := by
  cases program with
  | image i => cases h
  | bytes data =>
      rcases hread : Image.read data journal with ⟨loaded, journal'⟩
      cases loaded with
      | ok i => simp [Program.session?, hread] at h
      | error e =>
          refine ⟨e, journal', fun terminal fuel => ?_⟩
          simp only [run, hread]

/-- **What a run of an image that is over has done.** -/
theorem run_eq_some_iff
    (h : program.session? settings.sorted.options terminal journal = some s) {fuel : Nat}
    {c : Conclusion} :
    run fuel settings program terminal journal = some c ↔
      ∃ n t ending u, n < fuel ∧ s.after settings.sorted n = some t ∧
        t.Ends settings.sorted ending u ∧
        c = (u.close ending).conclusion settings.sorted.options ending := by
  rw [run_of_session? h, Option.map_eq_some_iff]
  constructor
  · rintro ⟨⟨ending, v⟩, hrun, rfl⟩
    obtain ⟨n, t, u, hlt, hafter, hover, rfl⟩ := Session.runFor_eq_some_iff.1 hrun
    exact ⟨n, t, ending, u, hlt, hafter, Session.turn_eq_over_iff.1 hover, rfl⟩
  · rintro ⟨n, t, ending, u, hlt, hafter, hends, rfl⟩
    exact ⟨(ending, u.close ending),
      Session.runFor_eq_some_iff.2 ⟨n, t, u, hlt, hafter, Session.turn_eq_over_iff.2 hends, rfl⟩,
      rfl⟩

/-- More fuel does not change what a run comes to, -/
theorem run_mono {fuel fuel' : Nat} {c : Conclusion}
    (h : run fuel settings program terminal journal = some c) (hle : fuel ≤ fuel') :
    run fuel' settings program terminal journal = some c := by
  cases hs : program.session? settings.sorted.options terminal journal with
  | none =>
      obtain ⟨e, journal', hrun⟩ := run_of_session?_eq_none hs
      rw [hrun] at h ⊢
      exact h
  | some s =>
      rw [run_of_session? hs, Option.map_eq_some_iff] at h ⊢
      obtain ⟨r, hr, rfl⟩ := h
      exact ⟨r, Session.runFor_mono hr hle, rfl⟩

/-- so it comes to the same with any fuel that suffices. -/
theorem run_unique {fuel fuel' : Nat} {c c' : Conclusion}
    (h : run fuel settings program terminal journal = some c)
    (h' : run fuel' settings program terminal journal = some c') : c = c' := by
  have hmost := run_mono h (Nat.le_max_left fuel fuel')
  have hmost' := run_mono h' (Nat.le_max_right fuel fuel')
  exact Option.some.inj (hmost.symm.trans hmost')

/-- **What a run that is over was**: there was no image and nothing to do, or it took turns from the
first session of an image to its end. -/
theorem run_cases {fuel : Nat} {c : Conclusion}
    (h : run fuel settings program terminal journal = some c) :
    (∃ e journal', c =
      { result := some (unparsed settings.options e), terminal, journal := journal' }) ∨
    ∃ image journal' n t ending u,
      (Session.start settings.sorted.options image terminal journal').after settings.sorted n =
        some t ∧
      t.Ends settings.sorted ending u ∧
      c = (u.close ending).conclusion settings.sorted.options ending := by
  cases hs : program.session? settings.sorted.options terminal journal with
  | none =>
      obtain ⟨e, journal', hrun⟩ := run_of_session?_eq_none hs
      exact .inl ⟨e, journal', Option.some.inj (h.symm.trans (hrun terminal fuel))⟩
  | some s =>
      obtain ⟨n, t, ending, u, -, hrest⟩ := (run_eq_some_iff hs).1 h
      obtain ⟨image, journal', rfl⟩ := Program.session?_cases hs
      exact .inr ⟨image, journal', n, t, ending, u, hrest⟩

/-- A run that keeps no trace has no rows. -/
theorem trace_of_run {fuel : Nat} {c : Conclusion} {r : Result}
    (htrace : settings.options.trace = false)
    (h : run fuel settings program terminal journal = some c) (hr : c.result = some r) :
    r.trace = [] := by
  obtain ⟨e, journal', rfl⟩ | ⟨image, journal', n, t, ending, u, hafter, hends, rfl⟩ := run_cases h
  · cases hr
    rfl
  · obtain ⟨rows, hrows, hlength⟩ := Session.trace_after hafter
    have hnever : ¬ settings.sorted.options.trace = true := by
      rw [Settings.sorted, Options.sortWatch, htrace]
      exact Bool.false_ne_true
    have hnone : u.trace.toList = [] := by
      rw [if_neg hnever, List.length_eq_zero_iff] at hlength
      rw [hends.trace_eq, hrows, hlength]
      rfl
    obtain ⟨-, rfl⟩ | ⟨report, -, rfl⟩ := Session.result?_cases hr <;> exact hnone

/-- **Runs give results**, except on terminals that can be interrupted. -/
theorem result_of_run {fuel : Nat} {c : Conclusion}
    (h : run fuel settings program terminal journal = some c)
    (hend : terminal.atEnd ≠ .interrupt) : ∃ r, c.result = some r := by
  obtain ⟨e, journal', rfl⟩ | ⟨image, journal', n, t, ending, u, hafter, hends, rfl⟩ := run_cases h
  · exact ⟨_, rfl⟩
  · cases ending with
    | halted => exact ⟨_, rfl⟩
    | faulted report => exact ⟨_, rfl⟩
    | interrupted =>
        have hpolicy := Session.closed_after (Machine.closed_atEnd terminal.atEnd) hafter rfl
        exact absurd (hpolicy.symm.trans hends.atEnd_eq) hend

/-- Neither of the policies that options choose between waits at the end of the input. -/
theorem EndOfInput.ofStrict_ne_interrupt (strict : Bool) : ofStrict strict ≠ .interrupt := by
  cases strict <;> decide

theorem result_of_runOn {codes : List Nat} {fuel : Nat} {c : Conclusion}
    (h : runOn codes fuel settings program journal = some c) : ∃ r, c.result = some r :=
  result_of_run h (EndOfInput.ofStrict_ne_interrupt settings.options.strictInput)

/-- What a run cannot change about its terminal is as it was. -/
theorem terminal_of_run {Q : Terminal → Prop} (hQ : Machine.Closed fun m => Q m.terminal)
    {fuel : Nat} {c : Conclusion} (h : run fuel settings program terminal journal = some c)
    (hq : Q terminal) : Q c.terminal := by
  cases hs : program.session? settings.sorted.options terminal journal with
  | none =>
      obtain ⟨e, journal', hrun⟩ := run_of_session?_eq_none hs
      rw [hrun] at h
      cases h
      exact hq
  | some s =>
      rw [← Session.terminal_of_session? hs] at hq
      rw [run_of_session? hs, Option.map_eq_some_iff] at h
      obtain ⟨⟨ending, t⟩, hrun, rfl⟩ := h
      exact Session.closed_runFor hQ hrun hq

end Programs

end LittleComputer
