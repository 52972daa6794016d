import LittleComputer.Proofs.Calls
import LittleComputer.Proofs.Strict

/-!
# Interrupted calls

A console that has no more characters waits, and the user may interrupt the call there.  On a strict
console the same read is a fault.  Up to this read the two calls do the same, and what they have
written by then is on the standard output of both.

* `Ending.Matches` — how runs end that can be interrupted, and their strict counterparts.
* `Session.matches_of_overruns` — **the same read ends both**.
* `Session.runFor_matches` — whole runs match, each with its ending.
* `Session.written_of_interrupted` — no byte is lost in an interrupt.
* `CommandLine.interpret_strict`, `CommandLine.parse_strict` — the strict counterpart of a command
  line.
* `CommandLine.call_interrupted` — **interrupted and strict calls**.
-/

namespace LittleComputer

/-! ## Endings -/

/-- `waiting.Matches strict` : a run that can be interrupted ends in the first way, and on a strict
terminal it ends in the second. -/
inductive Ending.Matches : Ending → Ending → Prop
  /-- The interrupt of the one is the end of the input for the other. -/
  | interrupted {report : Report} (underflow : report.kind = .inputUnderflow) :
      Matches .interrupted (.faulted report)
  /-- Both halt, -/
  | halted : Matches .halted .halted
  /-- or another fault ends both. -/
  | faulted {report : Report} (other : report.kind ≠ .inputUnderflow) :
      Matches (.faulted report) (.faulted report)

namespace Session

variable {settings : Settings} {s s' t t' : Session} {device : Device} {ending : Ending}

/-- Two runs that end in the same way match: the first cannot come to an end of its input, and the
second cannot be interrupted. -/
theorem matches_self (hwaits : s.machine.terminal.atEnd = .interrupt)
    (hstrict : s'.machine.terminal.atEnd = .underflow) (h : Ends settings s ending t)
    (h' : Ends settings s' ending t') : ending.Matches ending := by
  cases ending with
  | halted => exact .halted
  | faulted report =>
      refine .faulted fun hkind => ?_
      obtain ⟨hunderflow, -⟩ := exhausted_of_ends h hkind
      cases hwaits.symm.trans hunderflow
  | interrupted => cases hstrict.symm.trans h'.atEnd_eq

/-! ## Turns -/

/-- **The same read ends both runs**, and what has been written by then is all that they write. -/
theorem matches_of_overruns (h : s.Alike (fun t t' => t' = t.on device .underflow) s')
    (hwaits : s.machine.terminal.atEnd = .interrupt) (hfresh : ¬ s.machine.terminal.Overrun)
    (hover : s.Overruns settings) :
    ∃ t report t', Ends settings s .interrupted t ∧ Ends settings s' (.faulted report) t' ∧
      report.kind = .inputUnderflow ∧
      t.machine.terminal.written = t'.machine.terminal.written := by
  obtain ⟨hrunning, hlimit, hover⟩ := hover
  have hwaits' : s.machine.terminal.atEnd.stop? = some .interrupted := by
    rw [hwaits]
    rfl
  have hcycle :=
    Exec.stops_of_overrun (Exec.built_cycle settings.instructions) s.machine hwaits' hfresh hover
  obtain ⟨m, hcycle', -⟩ := Exec.cycle_of_overrun h.machine hfresh hover
  have hrunning' : s'.machine.processor.running = true := by
    rw [← h.machine.processor]
    exact hrunning
  have hlimit' : settings.options.exhausted? s'.steps = none := by
    rw [← h.steps]
    exact hlimit
  refine ⟨_, _, _, .interrupted hrunning hlimit hcycle, .faulted hrunning' hlimit' hcycle', rfl, ?_⟩
  have hbefore : s'.machine.terminal.written = s.machine.terminal.written := by
    rw [h.machine.terminal]
    rfl
  calc (Exec.left (Exec.cycle settings.instructions) s.machine).terminal.written
      = s.machine.terminal.written := Exec.written_of_cycle_error hcycle
    _ = s'.machine.terminal.written := hbefore.symm
    _ = m.terminal.written := (Exec.written_of_cycle_error hcycle').symm

/-- What is left of two runs that match: how they end, and what they have written. -/
def RunsMatch (r r' : Ending × Session) : Prop :=
  r.1.Matches r'.1 ∧ r.2.machine.terminal.written = r'.2.machine.terminal.written

/-- Pushing out the output writes nothing. -/
theorem written_close (s : Session) (ending : Ending) :
    (s.close ending).machine.terminal.written = s.machine.terminal.written :=
  Terminal.written_flush _

/-- **Runs match** on terminals of which one waits at the end of its input and the other is
strict. -/
theorem runFor_matches (settings : Settings)
    (h : s.Alike (fun t t' => t' = t.on device .underflow) s')
    (hwaits : s.machine.terminal.atEnd = .interrupt) (hfresh : ¬ s.machine.terminal.Overrun)
    (fuel : Nat) :
    (runFor settings fuel s = none ∧ runFor settings fuel s' = none) ∨
      ∃ r r', runFor settings fuel s = some r ∧ runFor settings fuel s' = some r' ∧
        RunsMatch r r' := by
  induction fuel generalizing s s' with
  | zero => exact .inl ⟨rfl, rfl⟩
  | succ fuel ih =>
      rw [runFor, runFor]
      by_cases hover : s.Overruns settings
      · obtain ⟨t, report, t', hends, hends', hkind, hwritten⟩ :=
          matches_of_overruns h hwaits hfresh hover
        rw [turn_eq_over_iff.2 hends, turn_eq_over_iff.2 hends']
        refine .inr ⟨_, _, rfl, rfl, .interrupted hkind, ?_⟩
        rw [written_close, written_close, hwritten]
      · have hstrict : s'.machine.terminal.atEnd = .underflow := by
          rw [h.machine.terminal]
          rfl
        have hsame := turn_alike (Terminal.simulation_on device .underflow) h
          fun hloses => hover ⟨hloses.1, hloses.2.1, hloses.2.2.2⟩
        generalize hturn : s.turn settings = turn at hsame ⊢
        generalize hturn' : s'.turn settings = turn' at hsame ⊢
        cases hsame with
        | @next u u' hu =>
            have hwaits' := closed_of_next (Machine.closed_atEnd .interrupt) hturn hwaits
            refine ih hu hwaits' fun hover' => hover ?_
            have hloses : s.Loses settings Terminal.Overrun := (loses_iff_of_next hturn).2 hover'
            exact hloses
        | @ended ending u u' hu =>
            have hends := turn_eq_over_iff.1 hturn
            have hends' := turn_eq_over_iff.1 hturn'
            refine .inr ⟨_, _, rfl, rfl, matches_self hwaits hstrict hends hends', ?_⟩
            rw [written_close, written_close, hu.machine.terminal]
            rfl
        | endless => exact .inl ⟨rfl, rfl⟩

/-- **No byte is lost in an interrupt**: all that has been written by completed instructions is
there. -/
theorem written_of_interrupted (h : Ends settings s .interrupted t) :
    (t.close .interrupted).machine.terminal.written = s.machine.terminal.written := by
  rw [written_close]
  cases h with
  | interrupted _ _ hcycle => exact Exec.written_of_cycle_error hcycle

end Session

/-- **Runs of images match** on consoles of which one can be interrupted and the other is strict. -/
theorem run_matches (settings : Settings) (image : Image) (stdin : List Byte) (journal : Journal)
    (fuel : Nat) :
    (run fuel settings (.image image) (.console stdin .interrupt) journal = none ∧
      run fuel settings.strict (.image image) (.console stdin .underflow) journal = none) ∨
    ∃ r r' : Ending × Session,
      run fuel settings (.image image) (.console stdin .interrupt) journal =
        some (r.2.conclusion settings.sorted.options r.1) ∧
      run fuel settings.strict (.image image) (.console stdin .underflow) journal =
        some (r'.2.conclusion settings.sorted.options r'.1) ∧ Session.RunsMatch r r' := by
  have hstrict : Terminal.console stdin .underflow =
      (Terminal.console stdin .interrupt).on .console .underflow := rfl
  have hs : (Program.image image).session? settings.sorted.options (.console stdin .interrupt)
      journal = some _ := rfl
  obtain ⟨s', hs', halike⟩ :=
    Program.session?_alike (R := fun t t' => t' = t.on .console .underflow) hstrict hs
  rw [run_strict_settings hs', run_of_session? hs, run_of_session? hs']
  obtain ⟨hnone, hnone'⟩ | ⟨r, r', hr, hr', hmatch⟩ :=
    Session.runFor_matches settings.sorted halike rfl List.not_mem_nil fuel
  · rw [hnone, hnone']
    exact .inl ⟨rfl, rfl⟩
  · rw [hr, hr']
    exact .inr ⟨r, r', rfl, rfl, hmatch⟩

namespace CommandLine

/-! ## Strict command lines -/

/-- The same arguments, but strict. -/
def Arguments.strict (a : Arguments) : Arguments := { a with strictInput := true }

/-- The same draft, but strict. -/
def Draft.strict (d : Draft) : Draft := { d with arguments := d.arguments.strict }

/-- The same command, but strict. -/
def Command.strict : Command → Command
  | run a => run a.strict
  | help => help
  | version => version

theorem finish_strict (d : Draft) : d.strict.finish = d.finish.map Command.strict := by
  obtain ⟨image, extras, a⟩ := d
  cases image with
  | none => rfl
  | some image => cases extras <;> rfl

theorem setValue_strict (integer? : String → Option Int) (d : Draft) (flag : Flag)
    (value : String) :
    d.strict.setValue integer? flag value = (d.setValue integer? flag value).map Draft.strict := by
  cases flag with
  | maxSteps =>
      simp only [Draft.setValue]
      cases Setting.ofValue (stepLimit integer?) value <;> rfl
  | logLevel =>
      simp only [Draft.setValue]
      cases Setting.ofValue levelNamed value <;> rfl
  | help | startAtOrigin | strictInput | version => rfl

/-- Help does not become strict. -/
theorem ofCluster_strict (letters : List Char) :
    (ofCluster letters).map Command.strict = ofCluster letters := by
  unfold ofCluster
  split <;> rfl

/-- **A draft that is strict stays so**, and otherwise the same comes of it. -/
theorem interpret_strict (integer? : String → Option Int) (tokens : List Token) (d : Draft) :
    interpret integer? tokens d.strict = (interpret integer? tokens d).map Command.strict := by
  fun_induction interpret integer? tokens d with
  | case1 d => exact finish_strict d
  | case2 _ _ | case3 _ _ => rfl
  | case4 _ _ ih | case5 _ _ ih | case12 _ _ _ ih => exact ih
  | case6 _ _ _ _ _ _ _ _ _ hvalue ih =>
      rw [interpret, setValue_strict, hvalue]
      · exact ih
      all_goals assumption
  | case7 _ _ _ _ _ _ _ _ _ hvalue =>
      rw [interpret, setValue_strict, hvalue]
      · rfl
      all_goals assumption
  | case8 _ _ _ _ _ _ _ _ =>
      rw [interpret]
      · rfl
      all_goals assumption
  | case9 _ _ _ _ _ hvalue ih =>
      rw [interpret, setValue_strict, hvalue]
      exact ih
  | case10 _ _ _ _ _ hvalue =>
      rw [interpret, setValue_strict, hvalue]
      rfl
  | case11 letters _ _ => exact (ofCluster_strict letters).symm
  | case13 _ _ d himage ih | case14 _ _ d _ himage ih | case17 _ _ d himage ih
  | case18 _ _ d _ himage ih =>
      -- an operand next to a separator
      have himage' : d.strict.image = _ := himage
      rw [interpret, himage']
      exact ih
  | case15 _ _ d hnext himage ih | case16 _ _ d hnext _ himage ih =>
      -- an operand without one
      have himage' : d.strict.image = _ := himage
      rw [interpret, himage']
      · exact ih
      · exact hnext
  | case19 _ _ hnext ih =>
      rw [interpret]
      · exact ih
      · exact hnext

/-- **Any command line can be made strict**, by one more option in front of it. -/
theorem parse_strict (integer? : String → Option Int) (arguments : List String) :
    parse integer? ("--strict-input" :: arguments) =
      (parse integer? arguments).map Command.strict := by
  have hoption : classify "--strict-input" = .ok (.option .strictInput none) := rfl
  have hsorted : tokens ("--strict-input" :: arguments) =
      (tokens arguments).map (.option .strictInput none :: ·) := by
    rw [tokens, if_neg (by decide), hoption]
    cases tokens arguments <;> rfl
  rw [parse, parse, hsorted]
  cases tokens arguments with
  | error e => rfl
  | ok sorted => exact interpret_strict integer? sorted {}

theorem options?_strict (a : Arguments) :
    a.strict.options? = a.options?.map fun o => { o with strictInput := true } := by
  obtain ⟨_, _, maxSteps, _, _⟩ := a
  cases maxSteps <;> rfl

/-! ## Exits -/

/-- `exit.Matches exit'` : the exit of a call that can be interrupted, and that of its strict
counterpart. -/
structure Exit.Matches (exit exit' : Exit) : Prop where
  /-- The same bytes are on the standard output. -/
  stdout : exit.stdout = exit'.stdout
  /-- The one was interrupted exactly if the other has come to the end of its input. -/
  interrupted : exit.code = 130 ↔ exit'.code = 7
  /-- Otherwise they have the same code. -/
  code : exit.code ≠ 130 → exit.code = exit'.code

/-- What two such calls come to. -/
inductive CallsMatch : Option (Except Failure Exit) → Option (Except Failure Exit) → Prop
  /-- Neither comes to an end. -/
  | endless : CallsMatch none none
  /-- Both break off for the same reason. -/
  | broken (failure : Failure) : CallsMatch (some (.error failure)) (some (.error failure))
  /-- Both exit. -/
  | exits {exit exit' : Exit} (h : exit.Matches exit') :
      CallsMatch (some (.ok exit)) (some (.ok exit'))

/-- Exits that have nothing to do with the input match themselves. -/
theorem matches_self {exit : Exit} (hinterrupt : exit.code ≠ 130) (hunderflow : exit.code ≠ 7) :
    exit.Matches exit where
  stdout := rfl
  interrupted := iff_of_false hinterrupt hunderflow
  code _ := rfl

theorem exitCode_ne_interrupted (kind : FaultKind) : exitCode kind ≠ 130 := by
  cases kind <;> decide

theorem exitCode_eq_seven_iff {kind : FaultKind} : exitCode kind = 7 ↔ kind = .inputUnderflow := by
  cases kind <;> decide

/-- **Runs that match are shown by exits that do.** -/
theorem matches_of_runsMatch {r r' : Ending × Session} (h : Session.RunsMatch r r')
    {options options' : Options} {exit exit' : Exit}
    (hcode : exit.code = codeOf (r.2.conclusion options r.1).result)
    (hcode' : exit'.code = codeOf (r'.2.conclusion options' r'.1).result)
    (hstdout : exit.stdout = r.2.machine.terminal.written)
    (hstdout' : exit'.stdout = r'.2.machine.terminal.written) : exit.Matches exit' := by
  obtain ⟨ending, t⟩ := r
  obtain ⟨ending', t'⟩ := r'
  obtain ⟨hending, hwritten⟩ := h
  dsimp only at hending hwritten hcode hcode' hstdout hstdout'
  have hsame : exit.stdout = exit'.stdout := by rw [hstdout, hstdout', hwritten]
  cases hending with
  | @interrupted report hkind =>
      have hinterrupt : exit.code = 130 := hcode
      have hunderflow : exit'.code = 7 := hcode'.trans (exitCode_eq_seven_iff.2 hkind)
      exact ⟨hsame, iff_of_true hinterrupt hunderflow, fun hother => absurd hinterrupt hother⟩
  | halted =>
      have hzero : exit.code = 0 := hcode
      have hzero' : exit'.code = 0 := hcode'
      refine ⟨hsame, ?_, fun _ => hzero.trans hzero'.symm⟩
      rw [hzero, hzero']
      decide
  | @faulted report hkind =>
      have hexit : exit.code = exitCode report.kind := hcode
      have hexit' : exit'.code = exitCode report.kind := hcode'
      refine ⟨hsame, iff_of_false ?_ ?_, fun _ => hexit.trans hexit'.symm⟩
      · rw [hexit]
        exact exitCode_ne_interrupted report.kind
      · rw [hexit']
        exact fun hseven => hkind (exitCode_eq_seven_iff.1 hseven)

/-- Only an interrupted run has the code of one. -/
theorem eq_none_of_codeOf {result : Option Result} (h : codeOf result = 130) : result = none := by
  cases result with
  | none => rfl
  | some r =>
      unfold codeOf at h
      cases herror : r.error with
      | none =>
          simp only [herror] at h
          cases h
      | some report =>
          simp only [herror] at h
          exact absurd h (exitCode_ne_interrupted report.kind)

/-! ## Calls -/

/-- `t` is the session of the call with arguments `a` in whose next instruction the user interrupts
it. -/
def Arguments.InterruptedAt (a : Arguments) (instructions : InstructionSet) (host : Host)
    (stdin : List Byte) (t : Plain.Session Console) : Prop :=
  ∃ image journal options s, loadNamed host a = .ok (.ok (image, journal)) ∧
    a.options? = .ok options ∧
    let settings : Settings := { options, instructions }
    Plain.prepare settings (.image image) (.console stdin a.strictInput true) journal = .ok s ∧
      ∃ k u, s.after settings.sorted k = some t ∧
        t.turn settings.sorted = .over (.escaped (.stop .interrupted)) u

variable {instructions : InstructionSet} {host : Host} {a : Arguments} {stdin : List Byte}
  {fuel : Nat}

/-- A load that fails has a code of its own. -/
theorem code_of_loadNamed {exit : Exit} (h : loadNamed host a = .ok (.error exit)) :
    exit.code = 2 := by
  unfold loadNamed at h
  simp only [bind, Except.bind] at h
  split at h
  · cases h
  · split at h <;> cases h
    rfl

/-- **Runs that arguments ask for match.** -/
theorem runArguments_matches :
    CallsMatch (runArguments fuel instructions host a stdin true)
      (runArguments fuel instructions host a.strict stdin false) := by
  have hload : loadNamed host a.strict = loadNamed host a := rfl
  rcases hnamed : loadNamed host a with failure | exit | ⟨image, journal⟩
  · rw [runArguments, runArguments, hload, hnamed]
    exact .broken failure
  · rw [runArguments, runArguments, hload, hnamed]
    have hcode := code_of_loadNamed hnamed
    exact .exits (matches_self (by omega) (by omega))
  · cases ho : a.options? with
    | error failure =>
        have ho' : a.strict.options? = .error failure := by rw [options?_strict, ho]; rfl
        rw [runArguments, runArguments, hload, hnamed, ho, ho']
        exact .broken failure
    | ok options =>
        have ho' : a.strict.options? = .ok { options with strictInput := true } := by
          rw [options?_strict, ho]
          rfl
        have hruns := run_matches { options, instructions } image stdin journal fuel
        have hfirst := runArguments_of_loadNamed hnamed ho fuel instructions stdin true
        have hsecond :=
          runArguments_of_loadNamed (hload.trans hnamed) ho' fuel instructions stdin false
        obtain ⟨hnone, hnone'⟩ | ⟨r, r', hr, hr', hmatch⟩ := hruns
        · obtain ⟨-, hcall⟩ | ⟨c, exit, hc, -⟩ := hfirst
          · obtain ⟨-, hcall'⟩ | ⟨c', exit', hc', -⟩ := hsecond
            · rw [hcall, hcall']
              exact .endless
            · cases hnone'.symm.trans hc'
          · cases hnone.symm.trans hc
        · obtain ⟨hnone, -⟩ | ⟨c, exit, hc, hcall, hcode, hstdout⟩ := hfirst
          · cases hr.symm.trans hnone
          · obtain ⟨hnone, -⟩ | ⟨c', exit', hc', hcall', hcode', hstdout'⟩ := hsecond
            · cases hr'.symm.trans hnone
            · cases hr.symm.trans hc
              cases hr'.symm.trans hc'
              rw [hcall, hcall']
              exact .exits (matches_of_runsMatch hmatch hcode hcode' hstdout hstdout')

/-- An interrupted call has shown all that had been written before the interrupt. -/
theorem interruptedAt_of_runArguments {exit : Exit}
    (h : runArguments fuel instructions host a stdin true = some (.ok exit))
    (hcode : exit.code = 130) :
    ∃ t, a.InterruptedAt instructions host stdin t ∧ exit.stdout = t.machine.port.own.written := by
  rcases hnamed : loadNamed host a with failure | failed | ⟨image, journal⟩
  · rw [runArguments, hnamed] at h
    cases h
  · rw [runArguments, hnamed] at h
    cases h
    have hcode' := code_of_loadNamed hnamed
    omega
  · obtain ⟨o, c, ho, hc, hcode', hstdout⟩ := run_of_runArguments hnamed h
    have hnone : c.result = none := eq_none_of_codeOf (hcode'.symm.trans hcode)
    have hconsole : (Port.console stdin a.strictInput true).Shows (.console stdin .interrupt) :=
      Port.shows_console stdin a.strictInput true
    obtain ⟨s, p, hs, hp, hstart⟩ | ⟨e, journal', hs, -⟩ := Program.rendered_session? hconsole
      { options := o, instructions } (.image image) journal
    · obtain ⟨k, t, ending, u, -, ht, hends, rfl⟩ := (run_eq_some_iff hs).1 hc
      obtain ⟨hlost, -⟩ | ⟨t', q, ht', hq, hsame⟩ :=
        Session.rendered_after Port.simulation
          (Settings.sorted { options := o, instructions }) hstart k
      · cases ht.symm.trans hlost
      · cases ht.symm.trans ht'
        have hending : ending = .interrupted := by
          cases ending with
          | halted => cases hnone
          | faulted report => cases hnone
          | interrupted => rfl
        subst hending
        have hturn := Session.rendered_turn Port.simulation
          (Settings.sorted { options := o, instructions }) hsame
        rw [Session.turn_eq_over_iff.2 hends] at hturn
        have hover : ∃ v, q.turn (Settings.sorted { options := o, instructions }) =
            .over (.escaped (.stop .interrupted)) v := by
          generalize q.turn (Settings.sorted { options := o, instructions }) = turn at hturn
          cases hturn with
          | @ended _ _ v _ => exact ⟨v, rfl⟩
        obtain ⟨v, hover⟩ := hover
        refine ⟨q, ⟨image, journal, o, p, hnamed, ho, hp, k, v, hq, hover⟩, ?_⟩
        have hsent : q.machine.port.own.written = t.machine.terminal.written := by
          obtain ⟨hmachine, -⟩ := hsame
          obtain ⟨machine, _, _, _⟩ := q
          cases hmachine with
          | intro _ hport => exact hport.sent
        rw [hstdout, hsent]
        exact Session.written_of_interrupted hends
    · cases hs

/-- **Interrupted and strict calls.**  Take any command line that is accepted, and make it strict:
there is such a command line.  The call with the first one, which the user interrupts when it waits
for more input, and the call with the strict one, without an interrupt, come to an end or break off
together.  If they exit, they have written the same; the first was interrupted exactly if the second
has come to the end of its input, and otherwise they have the same exit code.  An interrupted call
has written all that the instructions before the interrupt had. -/
theorem call_interrupted {host : Host} {arguments : List String} {command : Command}
    (hparse : parse host.integer? arguments = .ok command) (fuel : Nat)
    (instructions : InstructionSet) (stdin : List Byte) :
    parse host.integer? ("--strict-input" :: arguments) = .ok command.strict ∧
    (∀ arguments', parse host.integer? arguments' = .ok command.strict →
      CallsMatch (call fuel instructions host arguments stdin true)
        (call fuel instructions host arguments' stdin false)) ∧
    ∀ exit, call fuel instructions host arguments stdin true = some (.ok exit) →
      exit.code = 130 → ∃ a t, command = .run a ∧ a.InterruptedAt instructions host stdin t ∧
        exit.stdout = t.machine.port.own.written := by
  refine ⟨by rw [parse_strict, hparse]; rfl, fun arguments' hparse' => ?_, fun exit h hcode => ?_⟩
  · cases command with
    | run a =>
        rw [call_of_parse hparse, call_of_parse hparse']
        exact runArguments_matches
    | help | version =>
        rw [call, call, plan, plan, hparse, hparse']
        exact .exits (matches_self (by decide) (by decide))
  · cases command with
    | run a =>
        rw [call_of_parse hparse] at h
        obtain ⟨t, hinterrupted, hwritten⟩ := interruptedAt_of_runArguments h hcode
        exact ⟨a, t, rfl, hinterrupted, hwritten⟩
    | help | version =>
        rw [call, plan, hparse] at h
        cases h
        cases hcode

theorem call_interrupted_echoing :
    ∃ exit exit' t, call 9 .complete echoing ["/images/a.obj"] [0xE9] true = some (.ok exit) ∧
      call 9 .complete echoing ["--strict-input", "/images/a.obj"] [0xE9] false =
        some (.ok exit') ∧
      exit.code = 130 ∧ exit'.code = 7 ∧ exit.stdout = [0xE9] ∧ exit'.stdout = [0xE9] ∧
      Arguments.InterruptedAt { image := "/images/a.obj" } .complete echoing [0xE9] t ∧
      t.machine.port.own.written = [0xE9] := by
  have hparse : parse echoing.integer? ["/images/a.obj"] =
      .ok (.run { image := "/images/a.obj" }) := rfl
  have hrun : run 9 {} (.image ⟨0x3000, [0xF023, 0xF023]⟩) (.console [0xE9] .interrupt)
      ⟨.warning, #[]⟩ = some _ := rfl
  obtain ⟨exit, hcall, hcode, hstdout⟩ := call_echoing hparse rfl rfl rfl true hrun
  obtain ⟨hstrict, hmatch, hshown⟩ := call_interrupted hparse 9 .complete [0xE9]
  obtain ⟨a, t, ha, hinterrupted, hwritten⟩ := hshown exit hcall hcode
  cases ha
  have hexits := hmatch _ hstrict
  rw [hcall] at hexits
  generalize hcall' : call 9 .complete echoing ["--strict-input", "/images/a.obj"] [0xE9] false =
    called at *
  cases hexits with
  | @exits _ exit' h =>
      exact ⟨exit, exit', t, hcall, rfl, hcode, h.interrupted.1 hcode, hstdout,
        h.stdout.symm.trans hstdout, hinterrupted, hwritten.symm.trans hstdout⟩

end CommandLine

end LittleComputer
