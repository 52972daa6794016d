import LittleComputer.Proofs.Runs

/-!
# Runs and what is recorded of them

Rows and journals are written and never read.  Runs that differ only in what is recorded of them go
the same way, and they come to the same result but for what has been recorded.

* `Settings.Agree` — settings that differ only in what is to be recorded.
* `Session.Coincide` — sessions that differ only in what has been recorded.
* `Session.turn_coincide`, `Session.runFor_coincide` — **turns and runs go the same way**.
* `run_coincide` — so do runs of programs that are the same image.
-/

namespace LittleComputer

/-- The options, but nothing is to be recorded. -/
def Options.unobserved (o : Options) : Options :=
  { o with trace := false, watch := [], traceTerminal := false }

/-- The result, but nothing has been recorded. -/
def Result.unobserved (r : Result) : Result := { r with trace := [], watch := [] }

/-- Settings that differ at most in what is to be recorded. -/
structure Settings.Agree (settings settings' : Settings) : Prop where
  /-- The same instructions are there. -/
  instructions : settings.instructions = settings'.instructions
  /-- Whatever else the options say is the same. -/
  options : settings.options.unobserved = settings'.options.unobserved

namespace Settings.Agree

variable {settings settings' : Settings}

theorem refl (settings : Settings) : settings.Agree settings := ⟨rfl, rfl⟩

theorem symm (h : settings.Agree settings') : settings'.Agree settings :=
  ⟨h.instructions.symm, h.options.symm⟩

theorem sorted (h : settings.Agree settings') : settings.sorted.Agree settings'.sorted :=
  ⟨h.instructions, h.options⟩

theorem exhausted?_eq (h : settings.Agree settings') (steps : Nat) :
    settings.options.exhausted? steps = settings'.options.exhausted? steps := by
  show settings.options.unobserved.exhausted? steps = settings'.options.unobserved.exhausted? steps
  rw [h.options]

theorem start_eq (h : settings.Agree settings') (origin : Int) :
    settings.options.start origin = settings'.options.start origin := by
  show settings.options.unobserved.start origin = settings'.options.unobserved.start origin
  rw [h.options]

theorem initialMemory_eq (h : settings.Agree settings') :
    settings.options.initialMemory = settings'.options.initialMemory := by
  show settings.options.unobserved.initialMemory = settings'.options.unobserved.initialMemory
  rw [h.options]

theorem strictInput_eq (h : settings.Agree settings') :
    settings.options.strictInput = settings'.options.strictInput := by
  show settings.options.unobserved.strictInput = settings'.options.unobserved.strictInput
  rw [h.options]

end Settings.Agree

/-! ## Turns and runs -/

/-- Sessions that differ at most in what has been recorded. -/
structure Session.Coincide (s s' : Session) : Prop where
  /-- They have the same machine. -/
  machine : s.machine = s'.machine
  /-- They have completed the same number of steps. -/
  steps : s.steps = s'.steps

/-- Turns that differ at most in what has been recorded. -/
inductive Turn.Coincide : Turn → Turn → Prop
  /-- An instruction has been completed. -/
  | next {t t' : Session} (h : t.Coincide t') : Coincide (.next t) (.next t')
  /-- The run is over. -/
  | ended (ending : Ending) {t t' : Session} (h : t.Coincide t') :
      Coincide (.over ending t) (.over ending t')
  /-- The turn never ends. -/
  | endless : Coincide .endless .endless

namespace Session

variable {settings settings' : Settings} {s s' t : Session}

/-- Sessions start with the same machine. -/
theorem start_coincide (hsettings : settings.Agree settings') (image : Image)
    (terminal : Terminal) (journal journal' : Journal) :
    (start settings.options image terminal journal).Coincide
      (start settings'.options image terminal journal') := by
  refine ⟨?_, rfl⟩
  simp only [start, hsettings.start_eq, hsettings.initialMemory_eq]

/-- Closing them does not tell them apart. -/
theorem Coincide.close (h : s.Coincide s') (ending : Ending) :
    (s.close ending).Coincide (s'.close ending) :=
  ⟨congrArg (fun m => { m with terminal := m.terminal.flush }) h.machine, h.steps⟩

/-- **Turns go the same way.** -/
theorem turn_coincide (hsettings : settings.Agree settings') (h : s.Coincide s') :
    Turn.Coincide (s.turn settings) (s'.turn settings') := by
  obtain ⟨m, steps, trace, journal⟩ := s
  obtain ⟨m', steps', trace', journal'⟩ := s'
  obtain ⟨hm, hsteps⟩ := h
  dsimp only at hm hsteps
  subst hm hsteps
  simp only [turn, ← hsettings.exhausted?_eq, ← hsettings.instructions]
  split
  · split
    · exact .ended _ ⟨rfl, rfl⟩
    · split
      · exact .next ⟨rfl, rfl⟩
      · exact .ended _ ⟨rfl, rfl⟩
      · exact .ended _ ⟨rfl, rfl⟩
      · exact .endless
  · exact .ended _ ⟨rfl, rfl⟩

/-- **Runs go the same way.** -/
theorem runFor_coincide (hsettings : settings.Agree settings') (h : s.Coincide s') {fuel : Nat}
    {ending : Ending} (hrun : runFor settings fuel s = some (ending, t)) :
    ∃ t', runFor settings' fuel s' = some (ending, t') ∧ t.Coincide t' := by
  induction fuel generalizing s s' with
  | zero => cases hrun
  | succ fuel ih =>
      have hturn := turn_coincide hsettings h
      rw [runFor] at hrun ⊢
      generalize s.turn settings = turn at hturn hrun
      generalize s'.turn settings' = turn' at hturn ⊢
      cases hturn with
      | next ht => exact ih ht hrun
      | ended ending ht =>
          cases hrun
          exact ⟨_, rfl, ht.close ending⟩
      | endless => cases hrun

/-- Results differ in what has been recorded. -/
theorem Coincide.result? (h : s.Coincide s') (o o' : Options) (ending : Ending) :
    (s.result? o ending).map Result.unobserved = (s'.result? o' ending).map Result.unobserved := by
  cases ending with
  | interrupted => rfl
  | _ => simp only [Session.result?, result?.report, Option.map_some, Result.unobserved, h.machine,
      h.steps]

end Session

/-- **Runs of the same image go the same way**, whether it is given as such or as bytes, and
whatever is recorded. -/
theorem run_coincide {settings settings' : Settings} {program program' : Program} {image : Image}
    (hsettings : settings.Agree settings') (himage : program.image? = some image)
    (himage' : program'.image? = some image) {terminal : Terminal} {journal : Journal}
    {fuel : Nat} {c : Conclusion} (h : run fuel settings program terminal journal = some c)
    (journal' : Journal) :
    ∃ c', run fuel settings' program' terminal journal' = some c' ∧ c.terminal = c'.terminal ∧
      c.result.map Result.unobserved = c'.result.map Result.unobserved := by
  obtain ⟨j, hs⟩ := Program.session?_of_image? himage settings.sorted.options terminal journal
  obtain ⟨j', hs'⟩ := Program.session?_of_image? himage' settings'.sorted.options terminal journal'
  have hstart := Session.start_coincide hsettings.sorted image terminal j j'
  rw [run_of_session? hs, Option.map_eq_some_iff] at h
  obtain ⟨⟨ending, t⟩, ht, rfl⟩ := h
  obtain ⟨t', ht', hend⟩ := Session.runFor_coincide hsettings.sorted hstart ht
  rw [run_of_session? hs', ht']
  exact ⟨_, rfl, congrArg Machine.terminal hend.machine, hend.result? _ _ ending⟩

end LittleComputer
