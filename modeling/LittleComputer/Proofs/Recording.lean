import LittleComputer.Proofs.Observation
import LittleComputer.Proofs.Traces
import Mathlib.Data.List.Forall2

/-!
# Recording a run does not disturb it

Whether rows are kept, which cells they show, whether they show the codes at the terminal and how
much is reported: none of it makes a difference to the program, even if the keyboard registers are
among the cells.  The rows themselves show the same steps, each in as much detail as was asked for.

* `TraceRow.SameStep` — rows that show the same step.
* `Session.Recorded` — sessions that differ in what has been recorded, with rows that show the same
  steps; `Session.recorded_of_next`, `Session.after_recorded` — **turns keep them so**.
* `run_recorded` — so runs of the same image come to the same, with rows for the same steps.
* `TraceRow.document_without` — rows without codes are rows without the fields for them.
* `result_of_journals` — the result does not show how much is reported.
* `runOn_recorded` — **whatever is recorded, the results are the same**, image or not.
-/

namespace LittleComputer

/-! ## Rows of the same steps -/

/-- The rows show the same step, each what the options ask for. -/
def TraceRow.SameStep (o o' : Options) (row row' : TraceRow) : Prop :=
  ∃ m step address w, row = .after m step address w o.watch o.traceTerminal ∧
    row' = .after m step address w o'.watch o'.traceTerminal

/-- Sessions that differ at most in what has been recorded, and whose rows show the same steps. -/
structure Session.Recorded (o o' : Options) (s s' : Session) : Prop extends s.Coincide s' where
  /-- Where both have rows, these show the same steps. -/
  rows : o.trace = true → o'.trace = true →
    List.Forall₂ (TraceRow.SameStep o o') s.trace.toList s'.trace.toList

namespace Session

variable {settings settings' : Settings} {s s' t : Session}

/-- **A turn keeps them so.** -/
theorem recorded_of_next (hsettings : settings.Agree settings')
    (h : s.Recorded settings.options settings'.options s') (hturn : s.turn settings = .next t) :
    ∃ t', s'.turn settings' = .next t' ∧ t.Recorded settings.options settings'.options t' := by
  have hsame := turn_coincide hsettings h.toCoincide
  rw [hturn] at hsame
  generalize hturn' : s'.turn settings' = turn' at hsame
  cases hsame with
  | @next _ t' ht =>
      refine ⟨t', rfl, ht, fun htrace htrace' => ?_⟩
      obtain ⟨w, hcycle, hlast⟩ := row_of_next htrace hturn
      obtain ⟨w', hcycle', hlast'⟩ := row_of_next htrace' hturn'
      rw [← h.machine, ← hsettings.instructions, ← ht.machine] at hcycle'
      obtain ⟨rfl, -⟩ := EStateM.Result.ok.inj (hcycle.symm.trans hcycle')
      rw [hlast, hlast']
      have hrow : (s.row settings.options w t.machine).SameStep settings.options settings'.options
          (s'.row settings'.options w t'.machine) := by
        refine ⟨t.machine, s.steps + 1, s.machine.processor.pc, w, rfl, ?_⟩
        rw [row, ← h.steps, ← h.machine, ← ht.machine]
      exact List.rel_append (h.rows htrace htrace') (.cons hrow .nil)

/-- So does any number of turns. -/
theorem after_recorded (hsettings : settings.Agree settings')
    (h : s.Recorded settings.options settings'.options s') {n : Nat}
    (ht : after settings n s = some t) :
    ∃ t', after settings' n s' = some t' ∧
      t.Recorded settings.options settings'.options t' := by
  induction n generalizing t with
  | zero =>
      cases ht
      exact ⟨s', rfl, h⟩
  | succ n ih =>
      obtain ⟨u, hu, hturn⟩ := after_succ_eq_some_iff'.1 ht
      obtain ⟨u', hu', hrecorded⟩ := ih hu
      obtain ⟨t', hturn', ht'⟩ := recorded_of_next hsettings hrecorded hturn
      exact ⟨t', after_succ_eq_some_iff'.2 ⟨u', hu', hturn'⟩, ht'⟩

/-- The turn that ends the one run ends the other in the same way. -/
theorem ends_coincide (hsettings : settings.Agree settings') (h : s.Coincide s') {ending : Ending}
    (hends : Ends settings s ending t) :
    ∃ t', Ends settings' s' ending t' ∧ t.Coincide t' := by
  have hsame := turn_coincide hsettings h
  rw [turn_eq_over_iff.2 hends] at hsame
  generalize hturn' : s'.turn settings' = turn' at hsame
  cases hsame with
  | @ended _ _ t' ht => exact ⟨t', turn_eq_over_iff.1 hturn', ht⟩

/-- The result of a session shows the watch list. -/
theorem watch_of_result? {o : Options} {ending : Ending} {r : Result}
    (hr : s.result? o ending = some r) : r.watch = o.watch := by
  obtain ⟨-, rfl⟩ | ⟨report, -, rfl⟩ := result?_cases hr <;> rfl

end Session

/-! ## Runs -/

/-- Runs of the same image come to the same, and their rows show the same steps. -/
theorem run_recorded {settings settings' : Settings} {program : Program} {image : Image}
    (hsettings : settings.Agree settings') (himage : program.image? = some image)
    {terminal : Terminal} {journal : Journal} {fuel : Nat} {c : Conclusion} {r : Result}
    (h : run fuel settings program terminal journal = some c) (hr : c.result = some r)
    (journal' : Journal) :
    ∃ c' r', run fuel settings' program terminal journal' = some c' ∧ c'.result = some r' ∧
      r.unobserved = r'.unobserved ∧ r.watch = settings.sorted.options.watch ∧
      r'.watch = settings'.sorted.options.watch ∧
      (settings.options.trace = true → settings'.options.trace = true →
        List.Forall₂ (TraceRow.SameStep settings.sorted.options settings'.sorted.options)
          r.trace r'.trace) := by
  obtain ⟨j, hs⟩ := Program.session?_of_image? himage settings.sorted.options terminal journal
  obtain ⟨j', hs'⟩ := Program.session?_of_image? himage settings'.sorted.options terminal journal'
  obtain ⟨n, t, ending, u, hlt, hafter, hends, rfl⟩ := (run_eq_some_iff hs).1 h
  have hstart := Session.start_coincide hsettings.sorted image terminal j j'
  obtain ⟨t', hafter', ht⟩ :=
    Session.after_recorded hsettings.sorted ⟨hstart, fun _ _ => .nil⟩ hafter
  obtain ⟨u', hends', hu⟩ := Session.ends_coincide hsettings.sorted ht.toCoincide hends
  have hresult := (hu.close ending).result? settings.sorted.options settings'.sorted.options ending
  have hr' : (u.close ending).result? settings.sorted.options ending = some r := hr
  rw [hr', Option.map_some] at hresult
  obtain ⟨r', hr'', hsame⟩ := Option.map_eq_some_iff.1 hresult.symm
  refine ⟨_, r', (run_eq_some_iff hs').2 ⟨n, t', ending, u', hlt, hafter', hends', rfl⟩, hr'',
    hsame.symm, Session.watch_of_result? hr', Session.watch_of_result? hr'', ?_⟩
  intro htrace htrace'
  rw [(Session.steps_of_ends hends hr').2, (Session.steps_of_ends hends' hr'').2]
  exact ht.rows htrace htrace'

/-- What is no image gives the same result whenever it is run. -/
theorem run_of_no_image {program : Program} (h : program.image? = none) :
    ∃ e : Image.Error, ∀ settings terminal journal fuel, ∃ journal',
      run fuel settings program terminal journal =
        some { result := some (unparsed settings.options e), terminal, journal := journal' } := by
  cases program with
  | image i => cases h
  | bytes data =>
      cases hparse : Image.parse data with
      | ok parsed => simp [Program.image?, hparse] at h
      | error e =>
          refine ⟨e, fun settings terminal journal fuel => ⟨journal, ?_⟩⟩
          simp only [run, Image.read, hparse]

/-! ## Documents -/

/-- The document without the fields of these names. -/
def Json.without (names : List String) : Json → Json
  | object fields => object (fields.filter fun field => field.1 ∉ names)
  | other => other

/-- **Rows without codes** are rows without the fields for them. -/
theorem TraceRow.document_without (row : TraceRow) :
    row.document.without ["in_code", "out_code"] = { row with codes := none }.document := by
  obtain ⟨_, _, _, _, _, _, _, codes⟩ := row
  cases codes <;> rfl

/-- Rows of the same steps with the same cells differ only in the codes. -/
theorem TraceRow.SameStep.document_eq {o o' : Options} {row row' : TraceRow}
    (h : row.SameStep o o' row') (hwatch : o.watch = o'.watch)
    (hcodes : o'.traceTerminal = false) :
    row'.document = row.document.without ["in_code", "out_code"] := by
  obtain ⟨m, step, address, w, rfl, rfl⟩ := h
  rw [document_without, ← hwatch, hcodes]
  rfl

/-- So do lists of them. -/
theorem TraceRow.documents_eq {o o' : Options} {rows rows' : List TraceRow}
    (h : List.Forall₂ (SameStep o o') rows rows') (hwatch : o.watch = o'.watch)
    (hcodes : o'.traceTerminal = false) :
    rows'.map document = rows.map fun row => row.document.without ["in_code", "out_code"] := by
  induction h with
  | nil => rfl
  | cons hrow _ ih => rw [List.map_cons, List.map_cons, ih, hrow.document_eq hwatch hcodes]

/-! ## Results -/

/-- The results tell of the same run: they differ at most in rows and watch lists. -/
structure Result.SameRun (r r' : Result) : Prop where
  status : r.status = r'.status
  output : r.output = r'.output
  steps : r.steps = r'.steps
  final : r.final = r'.final
  error : r.error = r'.error

theorem Result.sameRun_of_unobserved {r r' : Result} (h : r.unobserved = r'.unobserved) :
    r.SameRun r' := by
  obtain ⟨output, steps, final, _, _, error⟩ := r
  obtain ⟨output', steps', final', _, _, error'⟩ := r'
  cases h
  exact ⟨rfl, rfl, rfl, rfl, rfl⟩

/-- The watch list of a result is that of the options in order, or as it was given if there was
nothing to run. -/
structure Result.Watches (r : Result) (o : Options) (program : Program) : Prop where
  /-- It is put in order before a run. -/
  sorted : program.image?.isSome = true → r.watch.Perm o.watch ∧ r.watch.Pairwise (· ≤ ·)
  /-- It is left alone if there is none. -/
  unsorted : program.image? = none → r.watch = o.watch

theorem Result.watches_of_sorted {r : Result} {settings : Settings} {program : Program}
    {image : Image} (himage : program.image? = some image)
    (h : r.watch = settings.sorted.options.watch) : r.Watches settings.options program where
  sorted _ := by
    rw [h]
    exact ⟨List.mergeSort_perm _ _, settings.options.pairwise_sortWatch⟩
  unsorted hnone := by
    rw [himage] at hnone
    cases hnone

/-- `Recordings settings settings' program r r'` : the results tell of the same run of the program,
each with the watch list that its settings give, and with rows that show the same steps. -/
structure Recordings (settings settings' : Settings) (program : Program) (r r' : Result) : Prop where
  /-- They differ at most in rows and watch lists. -/
  same : r.SameRun r'
  /-- The first has its watch list, -/
  watches : r.Watches settings.options program
  /-- and so has the second. -/
  watches' : r'.Watches settings'.options program
  /-- If both have a trace, each row shows the same step as its counterpart. -/
  rows : settings.options.trace = true → settings'.options.trace = true →
    List.Forall₂ (TraceRow.SameStep settings.sorted.options settings'.sorted.options)
      r.trace r'.trace
  /-- And if the same cells are watched, the rows without codes are the other ones without the
  fields for these. -/
  codes : settings.options.trace = true → settings'.options.trace = true →
    settings.options.watch.Perm settings'.options.watch → settings'.options.traceTerminal = false →
    r'.trace.map TraceRow.document =
      r.trace.map fun row => row.document.without ["in_code", "out_code"]

/-- Watch lists with the same addresses are the same when they are in order. -/
theorem Options.sortWatch_eq_of_perm {o o' : Options} (h : o.watch.Perm o'.watch) :
    o.sortWatch.watch = o'.sortWatch.watch := by
  have hsorted : o.sortWatch.watch.Perm o'.sortWatch.watch :=
    (List.mergeSort_perm _ _).trans (h.trans (List.mergeSort_perm _ _).symm)
  exact hsorted.eq_of_pairwise' o.pairwise_sortWatch o'.pairwise_sortWatch

section Main

variable {settings settings' : Settings} {program : Program} {codes : List Nat}

/-- What the one run comes to, the other comes to as well. -/
theorem recordings_of_runOn (hsettings : settings.Agree settings') {journal : Journal} {fuel : Nat}
    {c : Conclusion} (h : runOn codes fuel settings program journal = some c) (journal' : Journal) :
    ∃ c' r r', runOn codes fuel settings' program journal' = some c' ∧ c.result = some r ∧
      c'.result = some r' ∧ Recordings settings settings' program r r' := by
  rw [runOn, ← hsettings.strictInput_eq]
  cases himage : program.image? with
  | none =>
      obtain ⟨e, hrun⟩ := run_of_no_image himage
      have hwatches : ∀ o, (unparsed o e).Watches o program := by
        refine fun o => ⟨fun hsome => ?_, fun _ => rfl⟩
        rw [himage] at hsome
        cases hsome
      obtain ⟨j, hc⟩ := hrun settings (.buffer codes (.ofStrict settings.options.strictInput))
        journal fuel
      obtain ⟨j', hc'⟩ := hrun settings' (.buffer codes (.ofStrict settings.options.strictInput))
        journal' fuel
      cases h.symm.trans hc
      exact ⟨_, _, _, hc', rfl, rfl, ⟨rfl, rfl, rfl, rfl, rfl⟩, hwatches _, hwatches _,
        fun _ _ => .nil, fun _ _ _ _ => rfl⟩
  | some image =>
      obtain ⟨r, hr⟩ := result_of_runOn h
      obtain ⟨c', r', hc', hr', hsame, hwatch, hwatch', hrows⟩ :=
        run_recorded hsettings himage h hr journal'
      refine ⟨c', r, r', hc', hr, hr', Result.sameRun_of_unobserved hsame,
        Result.watches_of_sorted himage hwatch, Result.watches_of_sorted himage hwatch', hrows, ?_⟩
      intro htrace htrace' hperm hcodes
      exact TraceRow.documents_eq (hrows htrace htrace') (Options.sortWatch_eq_of_perm hperm) hcodes

/-- How much is reported does not show in the result. -/
theorem result_of_journals {journal : Journal} {fuel : Nat} {c : Conclusion} {r : Result}
    (h : runOn codes fuel settings program journal = some c) (hr : c.result = some r)
    (journal' : Journal) :
    ∃ c', runOn codes fuel settings program journal' = some c' ∧ c'.result = some r := by
  obtain ⟨c', r', r'', hc', hr', hr'', hrecordings⟩ := recordings_of_runOn (.refl settings) h journal'
  cases hr.symm.trans hr'
  have hwatch : r.watch = r''.watch := by
    cases himage : program.image? with
    | none => rw [hrecordings.watches.unsorted himage, hrecordings.watches'.unsorted himage]
    | some image =>
        have hsome : program.image?.isSome = true := by rw [himage]; rfl
        obtain ⟨hperm, hsorted⟩ := hrecordings.watches.sorted hsome
        obtain ⟨hperm', hsorted'⟩ := hrecordings.watches'.sorted hsome
        exact (hperm.trans hperm'.symm).eq_of_pairwise' hsorted hsorted'
  have htrace : r.trace = r''.trace := by
    cases htrace : settings.options.trace with
    | false => rw [trace_of_run htrace h hr, trace_of_run htrace hc' hr'']
    | true =>
        have hsame : ∀ row row', TraceRow.SameStep settings.sorted.options settings.sorted.options
            row row' → row = row' := by
          rintro _ _ ⟨m, step, address, w, rfl, rfl⟩
          rfl
        exact List.forall₂_eq_eq_eq ▸ (hrecordings.rows htrace htrace).imp hsame
  obtain ⟨-, houtput, hsteps, hfinal, herror⟩ := hrecordings.same
  refine ⟨c', hc', hr''.trans ?_⟩
  obtain ⟨output, steps, final, watch, trace, error⟩ := r
  cases houtput
  cases hsteps
  cases hfinal
  cases hwatch
  cases htrace
  cases herror
  rfl

/-- **Recording a run does not disturb it.**  Run a program twice on the same input, with settings
that differ at most in what is recorded of the run, and with any two journals.  Both runs come to an
end or neither does; and the results tell of the same run, with the watch list in order and with
rows for the same steps, as far as they were asked for. -/
theorem runOn_recorded (hsettings : settings.Agree settings') (program : Program)
    (codes : List Nat) (journal journal' : Journal) (fuel : Nat) :
    (runOn codes fuel settings program journal = none ∧
      runOn codes fuel settings' program journal' = none) ∨
    ∃ c c' r r', runOn codes fuel settings program journal = some c ∧
      runOn codes fuel settings' program journal' = some c' ∧ c.result = some r ∧
      c'.result = some r' ∧ Recordings settings settings' program r r' := by
  cases h : runOn codes fuel settings program journal with
  | some c =>
      obtain ⟨c', r, r', hc', hr, hr', hrecordings⟩ := recordings_of_runOn hsettings h journal'
      exact .inr ⟨c, c', r, r', rfl, hc', hr, hr', hrecordings⟩
  | none =>
      refine .inl ⟨rfl, ?_⟩
      cases h' : runOn codes fuel settings' program journal' with
      | none => rfl
      | some c' =>
          obtain ⟨c, -, -, hc, -⟩ := recordings_of_runOn hsettings.symm h' journal
          cases h.symm.trans hc

end Main

/-- A program that takes a character through a pointer to the keyboard status register. -/
def Program.polling : Program := .image ⟨0x3000, [0xA001, 0xF025, 0xFE00]⟩

/-- Settings that ask for a trace without codes, with the same watch list in another order. -/
def Settings.glancing : Settings :=
  { options :=
    { trace := true, watch := [0x3003, -1, 0x3003, 70000, 0xFE00], traceTerminal := false } }

theorem runOn_recorded_polling :
    ∃ c c' r r', runOn [65] 9 .watching .polling ⟨.debug, #[]⟩ = some c ∧
      runOn [65] 9 .glancing .polling ⟨.error, #[]⟩ = some c' ∧ c.result = some r ∧
      c'.result = some r' ∧ r.SameRun r' ∧ r.steps = 2 ∧ r.final.status = .halted ∧
      r.watch.Perm [0xFE00, 70000, 0x3003, -1, 0x3003] ∧
      r'.trace.map TraceRow.document =
        r.trace.map fun row => row.document.without ["in_code", "out_code"] := by
  have hagree : Settings.Agree .watching .glancing := ⟨rfl, rfl⟩
  have hperm : Settings.watching.options.watch.Perm Settings.glancing.options.watch := by decide
  have hrun : runOn [65] 9 .watching .polling ⟨.debug, #[]⟩ = some _ := rfl
  obtain ⟨hnone, -⟩ | ⟨c, c', r, r', hc, hc', hr, hr', hrecordings⟩ :=
    runOn_recorded hagree .polling [65] ⟨.debug, #[]⟩ ⟨.error, #[]⟩ 9
  · cases hrun.symm.trans hnone
  · cases hrun.symm.trans hc
    cases hr
    exact ⟨_, c', _, r', hrun, hc', rfl, hr', hrecordings.same, rfl, rfl,
      (hrecordings.watches.sorted rfl).1, hrecordings.codes rfl rfl hperm rfl⟩

end LittleComputer
