import LittleComputer.Proofs.Rows
import LittleComputer.Proofs.Stops
import Mathlib.Data.List.Sort

/-!
# Traces tell the whole run

A trace that was asked for is the path of the machine: its rows follow each other without a gap from
the start of the program to its end, and each shows the machine that its step has left.

* `Memory.mem_watchable_iff`, `Memory.pairwise_watchable` — which cells a watch list shows, and in
  which order.
* `TraceRow.Tells`, `Session.tells_of_row` — what a row tells of its step.
* `Session.shown_after` — the last row shows the processor of a session.
* `Session.shown_of_ends` — the turn that ends a run leaves registers and flags alone, and moves
  past the instruction if it is reported.
* `Result.Chained`, `run_trace` — **the rows of a run are a chain**, from the start of the program
  to the final state.
-/

namespace LittleComputer

/-! ## Watch lists -/

/-- What is left of a list without its repetitions is in the order that the list was in, and nothing
comes twice. -/
theorem pairwise_eraseDups {R : Int → Int → Prop} (l : List Int) (h : l.Pairwise R) :
    l.eraseDups.Pairwise fun a b => R a b ∧ a ≠ b := by
  match l with
  | [] => simp
  | a :: l =>
      rw [List.pairwise_cons] at h
      rw [List.eraseDups_cons, List.pairwise_cons]
      constructor
      · intro b hb
        have hb' : b ∈ l ∧ b ≠ a := by simpa using hb
        exact ⟨h.1 b hb'.1, hb'.2.symm⟩
      · exact pairwise_eraseDups _ (h.2.filter _)
termination_by l.length
decreasing_by exact Nat.lt_succ_of_le (List.length_filter_le _ _)

theorem Options.pairwise_sortWatch (o : Options) : o.sortWatch.watch.Pairwise (· ≤ ·) :=
  List.pairwise_mergeSort' (· ≤ ·) o.watch

theorem Options.mem_sortWatch (o : Options) (a : Int) : a ∈ o.sortWatch.watch ↔ a ∈ o.watch :=
  List.mem_mergeSort

namespace Memory

/-- A watch list shows the cells whose addresses are in it as they stand. -/
theorem mem_watchable_iff (addresses : List Int) (a : Word) :
    a ∈ watchable addresses ↔ (a.toNat : Int) ∈ addresses := by
  have ha := a.isLt
  simp only [watchable, List.mem_map, List.mem_eraseDups, List.mem_filter, decide_eq_true_eq]
  simp only [wordCount]
  constructor
  · rintro ⟨address, ⟨hmem, hlow, hhigh⟩, rfl⟩
    have hsame : ((address % 65536).toNat : Int) = address := by omega
    rw [Word.toNat_ofInt, hsame]
    exact hmem
  · intro hmem
    exact ⟨a.toNat, ⟨hmem, by omega, by omega⟩, Word.ofInt_toNat a⟩

/-- An ascending watch list shows its cells in ascending order, each once. -/
theorem pairwise_watchable {addresses : List Int} (h : addresses.Pairwise (· ≤ ·)) :
    (watchable addresses).Pairwise (· < ·) := by
  unfold watchable
  rw [List.pairwise_map]
  refine (pairwise_eraseDups _ (h.filter _)).imp_of_mem fun {a b} ha hb hlt => ?_
  simp only [List.mem_eraseDups, List.mem_filter, decide_eq_true_eq] at ha hb
  simp only [wordCount] at ha hb
  rw [BitVec.lt_def, Word.toNat_ofInt, Word.toNat_ofInt]
  omega

/-- Whatever the order, no cell shows twice. -/
theorem nodup_watchable (addresses : List Int) : (watchable addresses).Nodup := by
  unfold watchable
  refine List.pairwise_map.2 ((pairwise_eraseDups (R := fun _ _ => True) _
    (List.pairwise_of_forall fun _ _ => trivial)).imp_of_mem fun {a b} ha hb hne heq => ?_)
  simp only [List.mem_eraseDups, List.mem_filter, decide_eq_true_eq] at ha hb
  simp only [wordCount] at ha hb
  rw [Word.ofInt_eq_iff, Word.cast_toNat_ofInt] at heq
  omega

theorem mem_watched_iff (m : Memory) (addresses : List Int) (a w : Word) :
    (a, w) ∈ m.watched addresses ↔ (a.toNat : Int) ∈ addresses ∧ w = m.peek a := by
  rw [← mem_watchable_iff]
  simp only [watched, List.mem_map, Prod.mk.injEq]
  constructor
  · rintro ⟨b, hb, rfl, rfl⟩
    exact ⟨hb, rfl⟩
  · rintro ⟨ha, rfl⟩
    exact ⟨a, ha, rfl, rfl⟩

end Memory

/-! ## Rows -/

/-- The row tells of the step that takes the machine `m` to `m'`, of a program run with a watch
list. -/
structure TraceRow.Tells (row : TraceRow) (settings : Settings) (m m' : Machine) : Prop where
  /-- The machine that the row was made from is the one that the cycle has left: looking at the
  watched cells has done nothing to it. -/
  cycle : Exec.cycle settings.instructions m = .ok row.instr m'
  /-- The step began at the address. -/
  addr : row.addr = m.processor.pc
  /-- The word is the one that was stored there. -/
  instr : row.instr = m.memory.peek row.addr
  /-- The registers are those afterwards. -/
  registers : row.registers = m'.processor.registers
  /-- So is the program counter. -/
  pc : row.pc = m'.processor.pc
  /-- So are the flags. -/
  cond : row.cond = m'.processor.cond
  /-- The watched addresses ascend, so none of them shows twice. -/
  ascending : row.watched.Pairwise fun a b => a.1 < b.1
  /-- They are those of the watch list that are addresses, each with what its cell holds
  afterwards. -/
  watched : ∀ a w, (a, w) ∈ row.watched ↔
    (a.toNat : Int) ∈ settings.options.watch ∧ w = m'.memory.peek a

namespace Session

variable {settings : Settings} {s t : Session}

/-- **The row for a step tells of it.** -/
theorem tells_row {w : Word} {m : Machine}
    (h : Exec.cycle settings.instructions s.machine = .ok w m) :
    (s.row settings.sorted.options w m).Tells settings s.machine m where
  cycle := h
  addr := rfl
  instr := (Exec.cycle_ok_cases h).2.1
  registers := rfl
  pc := rfl
  cond := rfl
  ascending :=
    List.pairwise_map.2 (Memory.pairwise_watchable settings.options.pairwise_sortWatch)
  watched a w := by
    rw [← settings.options.mem_sortWatch]
    exact Memory.mem_watched_iff _ _ _ _

/-- Each row of a session tells of the step with its number. -/
theorem tells_of_row (htrace : settings.options.trace = true) (hs : s.trace = #[])
    (hzero : s.steps = 0) {n : Nat} (h : after settings.sorted n s = some t) {i : Nat}
    {row : TraceRow} (hrow : t.trace.toList[i]? = some row) :
    row.step = i + 1 ∧ ∃ u v, after settings.sorted i s = some u ∧
      after settings.sorted (i + 1) s = some v ∧ row.Tells settings u.machine v.machine := by
  have hrecords : settings.sorted.options.trace = true := htrace
  obtain ⟨u, v, w, hu, hturn, hcycle, rfl⟩ := step_of_row hrecords hs h hrow
  refine ⟨?_, u, v, hu, after_succ_eq_some_iff'.2 ⟨u, hu, hturn⟩, tells_row hcycle⟩
  show u.steps + 1 = i + 1
  rw [steps_after hu, hzero, Nat.zero_add]

/-- The last row shows the processor as it is; where there is none, it is the one at first. -/
theorem shown_after (htrace : settings.options.trace = true) (hs : s.trace = #[]) {n : Nat}
    (h : after settings.sorted n s = some t) :
    t.machine.processor.registers =
        (t.trace.toList.getLast?.map TraceRow.registers).getD s.machine.processor.registers ∧
      t.machine.processor.cond =
        (t.trace.toList.getLast?.map TraceRow.cond).getD s.machine.processor.cond ∧
      t.machine.processor.pc =
        (t.trace.toList.getLast?.map TraceRow.pc).getD s.machine.processor.pc := by
  cases n with
  | zero =>
      cases h
      rw [hs]
      exact ⟨rfl, rfl, rfl⟩
  | succ n =>
      obtain ⟨u, -, hturn⟩ := after_succ_eq_some_iff'.1 h
      have hrecords : settings.sorted.options.trace = true := htrace
      obtain ⟨w, -, hrow⟩ := row_of_next hrecords hturn
      rw [hrow, List.getLast?_concat]
      exact ⟨rfl, rfl, rfl⟩

/-- The result of a run has the steps and the rows of its last session. -/
theorem steps_of_ends {ending : Ending} {o : Options} {r : Result} (h : Ends settings s ending t)
    (hr : (t.close ending).result? o ending = some r) :
    r.steps = s.steps ∧ r.trace = s.trace.toList := by
  rw [← h.steps_eq, ← h.trace_eq]
  obtain ⟨-, rfl⟩ | ⟨report, -, rfl⟩ := Session.result?_cases hr
  · exact ⟨rfl, rfl⟩
  · exact ⟨rfl, rfl⟩

end Session

/-- A cycle that stops leaves registers and flags alone, and has moved past its instruction exactly
if that is in hand. -/
theorem Exec.shown_of_cycle_error {instructions : InstructionSet} {m m' : Machine} {e : Stop}
    (h : cycle instructions m = .error e m') :
    m'.processor.registers = m.processor.registers ∧ m'.processor.cond = m.processor.cond ∧
      m'.processor.pc = m.processor.pc + if m'.processor.ir.isSome then 1 else 0 := by
  obtain ⟨-, hm⟩ | ⟨w, m₁, -, hm, -⟩ := processor_of_cycle_error h
  · rw [hm]
    exact ⟨rfl, rfl, (BitVec.add_zero _).symm⟩
  · rw [hm]
    exact ⟨rfl, rfl, rfl⟩

/-- The turn that ends a run leaves registers and flags alone as well, and it has moved past the
instruction exactly if the report names its word. -/
theorem Session.shown_of_ends {settings : Settings} {s t : Session} {ending : Ending} {o : Options}
    {r : Result} (h : Ends settings s ending t)
    (hr : (t.close ending).result? o ending = some r) :
    r.final.registers = s.machine.processor.registers ∧
      r.final.cond = s.machine.processor.cond ∧
      r.final.pc = s.machine.processor.pc +
        if (r.error.bind Report.instr).isSome then 1 else 0 := by
  cases h with
  | halted _ =>
      cases hr
      exact ⟨rfl, rfl, (BitVec.add_zero _).symm⟩
  | exhausted _ _ =>
      cases hr
      exact ⟨rfl, rfl, (BitVec.add_zero _).symm⟩
  | faulted _ _ hcycle =>
      cases hr
      obtain ⟨hregisters, hcond, hpc⟩ := Exec.shown_of_cycle_error hcycle
      exact ⟨hregisters, hcond, hpc⟩
  | interrupted _ _ _ => cases hr

/-! ## Chains -/

/-- The rows of a result and its final state are the path of a machine that starts at `start`. -/
structure Result.Chained (r : Result) (start : Word) : Prop where
  /-- There is one row for each step. -/
  length : r.trace.length = r.steps
  /-- The rows are numbered. -/
  step : ∀ i row, r.trace[i]? = some row → row.step = i + 1
  /-- The first begins at the start. -/
  first : ∀ row, r.trace[0]? = some row → row.addr = start
  /-- Every other one begins where the one before it has led. -/
  next : ∀ i row row', r.trace[i]? = some row → r.trace[i + 1]? = some row' → row'.addr = row.pc
  /-- The final registers are those of the last row, or all zero if there is none. -/
  registers : r.final.registers =
    (r.trace.getLast?.map TraceRow.registers).getD (Vector.replicate 8 0)
  /-- So are the final flags; at first only the zero flag is set. -/
  cond : r.final.cond = (r.trace.getLast?.map TraceRow.cond).getD .zero
  /-- The final program counter is where the last row has led, or the start; it is one more exactly
  if a word was fetched that is reported. -/
  pc : r.final.pc = (r.trace.getLast?.map TraceRow.pc).getD start +
    if (r.error.bind Report.instr).isSome then 1 else 0

/-- **The trace of a run is a faithful chain.**  There is a row for each completed step; it shows
what the machine was about to do and the machine right after it, the watched cells included; each
begins where the one before it has led, and the final state is where the last has led. -/
theorem run_trace {settings : Settings} {program : Program} {image : Image} {terminal : Terminal}
    {journal : Journal} {fuel : Nat} {c : Conclusion} {r : Result}
    (htrace : settings.options.trace = true) (himage : program.image? = some image)
    (h : run fuel settings program terminal journal = some c) (hr : c.result = some r) :
    r.Chained (Word.ofInt (settings.options.start image.origin)) ∧
    ∃ s, program.session? settings.sorted.options terminal journal = some s ∧
      ∀ i row, r.trace[i]? = some row → ∃ t u, s.after settings.sorted i = some t ∧
        s.after settings.sorted (i + 1) = some u ∧ row.Tells settings t.machine u.machine := by
  obtain ⟨journal', hs⟩ :=
    Program.session?_of_image? himage settings.sorted.options terminal journal
  obtain ⟨n, t, ending, u, -, hafter, hends, rfl⟩ := (run_eq_some_iff hs).1 h
  have htells := fun i row (hrow : t.trace.toList[i]? = some row) =>
    Session.tells_of_row htrace rfl rfl hafter hrow
  obtain ⟨hsteps, hrows⟩ := Session.steps_of_ends hends hr
  obtain ⟨hregisters, hcond, hpc⟩ := Session.shown_of_ends hends hr
  obtain ⟨hregisters', hcond', hpc'⟩ := Session.shown_after htrace rfl hafter
  rw [← hrows] at htells hregisters' hcond' hpc'
  refine ⟨?_, _, hs, fun i row hrow => (htells i row hrow).2⟩
  constructor
  case length =>
    have hrecords : settings.sorted.options.trace = true := htrace
    rw [hrows, hsteps, Session.length_trace hrecords rfl hafter, Session.steps_after hafter]
    exact (Nat.zero_add n).symm
  case step => exact fun i row hrow => (htells i row hrow).1
  case first =>
    intro row hrow
    obtain ⟨-, u, _, hu, -, htold⟩ := htells 0 row hrow
    cases hu
    exact htold.addr
  case next =>
    intro i row row' hrow hrow'
    obtain ⟨-, _, v, -, hv, htold⟩ := htells i row hrow
    obtain ⟨-, u, _, hu, -, htold'⟩ := htells (i + 1) row' hrow'
    have hsame : v = u := Option.some.inj (hv.symm.trans hu)
    rw [htold'.addr, htold.pc, hsame]
  case registers => exact hregisters.trans hregisters'
  case cond => exact hcond.trans hcond'
  case pc =>
    rw [hpc, hpc']
    rfl

/-- A program that writes an instruction over another one, which it then comes to, and at last does
what the machine refuses. -/
def Program.rewriting : Program :=
  .image ⟨0x3000, [0x2003, 0x3001, 0x0000, 0xD000, 0x1021, 0x8000]⟩

/-- Settings that ask for a trace, with a watch list in disorder. -/
def Settings.watching : Settings :=
  { options := { trace := true, watch := [0xFE00, 70000, 0x3003, -1, 0x3003] } }

theorem run_trace_rewriting :
    ∃ c r row, run 9 .watching .rewriting (.buffer [65] .sentinel) ⟨.error, #[]⟩ = some c ∧
      c.result = some r ∧ r.Chained 0x3000 ∧ r.final.pc = 0x3006 ∧
      r.trace[3]? = some row ∧ row.addr = 0x3003 ∧ row.instr = 0x1021 ∧
      (0x3003, 0x1021) ∈ row.watched ∧ c.terminal.pending = [65] := by
  have hrun : run 9 .watching .rewriting (.buffer [65] .sentinel) ⟨.error, #[]⟩ = some _ := rfl
  have himage : Program.rewriting.image? = some ⟨0x3000, _⟩ := rfl
  obtain ⟨hchained, s, hs, htells⟩ := run_trace rfl himage hrun rfl
  cases hs
  obtain ⟨t, u, -, hu, htold⟩ := htells 3 _ rfl
  cases hu
  exact ⟨_, _, _, hrun, rfl, hchained, hchained.pc, rfl, rfl, rfl,
    (htold.watched 0x3003 0x1021).2 ⟨by decide, rfl⟩, rfl⟩

end LittleComputer
