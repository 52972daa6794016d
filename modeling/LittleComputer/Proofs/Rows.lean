import LittleComputer.Proofs.Runs

/-!
# Rows and the steps they show

Where a trace is asked for, every completed turn adds one row, made of the machines before and after
it.

* `Session.row` — the row for a step.
* `Session.row_of_next` — a completed turn adds the row of its step.
* `Session.length_trace` — there are as many rows as steps.
* `Session.step_of_row` — **every row is that of its step**: the row with index `i` shows what the
  turn after the first `i` turns has done.
* `prefix_of_after`, `prefix_of_run` — **rows and output only grow**: what a run has after some
  turns is the first part of what it comes to.
-/

namespace LittleComputer

/-- The code of the character read, as the row shows it. -/
def TraceRow.inCode (row : TraceRow) : Option Nat := row.codes.bind Prod.fst

namespace Session

variable {settings : Settings} {s t : Session}

/-- The row for the step of a session that carries out `w` and leaves the machine `m`. -/
def row (o : Options) (s : Session) (w : Word) (m : Machine) : TraceRow :=
  .after m (s.steps + 1) s.machine.processor.pc w o.watch o.traceTerminal

theorem row_of_next (htrace : settings.options.trace = true) (h : s.turn settings = .next t) :
    ∃ w, Exec.cycle settings.instructions s.machine = .ok w t.machine ∧
      t.trace.toList = s.trace.toList ++ [s.row settings.options w t.machine] := by
  obtain ⟨-, -, w, m, hcycle, rfl⟩ := turn_eq_next_iff.1 h
  refine ⟨w, hcycle, ?_⟩
  unfold advance
  dsimp only
  rw [if_pos htrace, Array.toList_push]
  rfl

theorem length_trace (htrace : settings.options.trace = true) (hs : s.trace = #[]) {n : Nat}
    (h : after settings n s = some t) : t.trace.toList.length = n := by
  obtain ⟨rows, hrows, hlength⟩ := trace_after h
  rw [hrows, hs, List.nil_append, hlength, if_pos htrace]

/-- **Every row is that of its step.** -/
theorem step_of_row (htrace : settings.options.trace = true) (hs : s.trace = #[]) {n : Nat}
    (h : after settings n s = some t) {i : Nat} {shown : TraceRow}
    (hrow : t.trace.toList[i]? = some shown) :
    ∃ u v w, after settings i s = some u ∧ u.turn settings = .next v ∧
      Exec.cycle settings.instructions u.machine = .ok w v.machine ∧
      shown = u.row settings.options w v.machine := by
  induction n generalizing t with
  | zero =>
      cases h
      rw [hs] at hrow
      cases hrow
  | succ n ih =>
      obtain ⟨u, hu, hturn⟩ := after_succ_eq_some_iff'.1 h
      obtain ⟨w, hcycle, hlast⟩ := row_of_next htrace hturn
      have hlength := length_trace htrace hs hu
      rw [hlast] at hrow
      by_cases hi : i < n
      · rw [List.getElem?_append_left (by omega)] at hrow
        exact ih hu hrow
      · -- it is the row of the last turn
        rw [List.getElem?_append_right (by omega), List.getElem?_singleton] at hrow
        split at hrow
        · cases hrow
          have hin : i = n := by omega
          subst hin
          exact ⟨u, t, w, hu, hturn, hcycle, rfl⟩
        · cases hrow

/-- The rows of the first `k` turns stay the first rows. -/
theorem take_trace {k j : Nat} (hs : s.trace = #[]) (ht : after settings k s = some t)
    (hu : after settings j t = some u) : u.trace.toList.take k = t.trace.toList := by
  obtain ⟨first, hfirst, hk⟩ := trace_after ht
  obtain ⟨rest, hrest, hj⟩ := trace_after hu
  rw [hs, List.nil_append] at hfirst
  rw [hrest, hfirst]
  by_cases htrace : settings.options.trace = true
  · rw [if_pos htrace] at hk
    rw [← hk, List.take_left]
  · -- without a trace there are no rows at all
    rw [if_neg htrace] at hk hj
    rw [List.eq_nil_of_length_eq_zero hk, List.eq_nil_of_length_eq_zero hj]
    exact List.take_nil

end Session

section Programs

variable {settings : Settings} {program : Program} {terminal : Terminal} {journal : Journal}
  {s t : Session}

/-- Wherever a run goes on to, it has the rows and the output that it had. -/
theorem prefix_of_after
    (hs : program.session? settings.sorted.options terminal journal = some s) {k j : Nat}
    {u : Session} (ht : s.after settings.sorted k = some t)
    (hu : t.after settings.sorted j = some u) :
    u.trace.toList.take k = t.trace.toList ∧
      t.machine.terminal.output <+: u.machine.terminal.output := by
  have hempty : s.trace = #[] := by
    obtain ⟨image, journal', rfl⟩ := Program.session?_cases hs
    rfl
  exact ⟨Session.take_trace hempty ht hu,
    Session.closed_after (Machine.closed_output t.machine.terminal.output) hu List.prefix_rfl⟩

/-- And its result has them, if it ends. -/
theorem prefix_of_run
    (hs : program.session? settings.sorted.options terminal journal = some s) {k fuel : Nat}
    {c : Conclusion} {r : Result} (ht : s.after settings.sorted k = some t)
    (h : run fuel settings program terminal journal = some c) (hr : c.result = some r) :
    r.trace.take k = t.trace.toList ∧ t.machine.terminal.output <+: r.output := by
  obtain ⟨k', v, ending, w, -, hafter, hends, rfl⟩ := (run_eq_some_iff hs).1 h
  have hle : k ≤ k' := by
    refine Nat.le_of_not_lt fun hlt => ?_
    -- the last turn of the run would be one of those before
    obtain ⟨v', u, hv', hturn⟩ := Session.turn_of_after_lt ht hlt
    cases hafter.symm.trans hv'
    cases (Session.turn_eq_over_iff.2 hends).symm.trans hturn
  have hrest : t.after settings.sorted (k' - k) = some v := by
    have hsplit : k' = k + (k' - k) := by omega
    rw [hsplit, Session.after_add, ht] at hafter
    exact hafter
  obtain ⟨htrace, hv⟩ := prefix_of_after hs ht hrest
  have hw : t.machine.terminal.output <+: w.machine.terminal.flush.output := by
    rw [Terminal.output_flush]
    exact Session.closed_of_ends (Machine.closed_output _) hends hv
  rw [← hends.trace_eq] at htrace
  obtain ⟨-, rfl⟩ | ⟨report, -, rfl⟩ := Session.result?_cases hr
  · exact ⟨htrace, hw⟩
  · exact ⟨htrace, hw⟩

end Programs

end LittleComputer
