import LittleComputer.CommandLine
import LittleComputer.Proofs.Consoles
import LittleComputer.Proofs.Images
import LittleComputer.Proofs.Observation
import LittleComputer.Proofs.Reports
import LittleComputer.Proofs.WellFormed

/-!
# Calls of the command line

A call loads an image from a file and runs it on the console.  What it leaves is what running the
bytes of the file on a buffer comes to: the exit code tells how the run ended, and the standard
output is the text that the buffer has in the end.

* `Image.load_of_short`, `Image.load_of_long` — what can be loaded.
* `CommandLine.conclude_of_rendered` — what is concluded from a run on a console.
* `CommandLine.runArguments_of_unloadable`, `CommandLine.runArguments_of_loadNamed` — what a call
  comes to without an image and with one.
* `decided_of_run` — how the run of an image can end.
* `buffered_of_console` — the run of an image on a console is that of its bytes on a buffer.
* `CommandLine.Exit.Shows`, `CommandLine.shows_of_runArguments` — an exit shows the result of a run.
* `CommandLine.runArguments_withLevel` — the level makes no difference.
* `CommandLine.Exit.Refines`, `CommandLine.call_refines_run` — **a call is a run of the file's
  bytes**.
-/

namespace LittleComputer

/-! ## Loading -/

namespace Image

variable (path : String) {data : List Byte}

/-- Data that is too short is no image. -/
theorem load_of_short (h : data.length < 2) (journal : Journal) :
    load path (.ok data) journal = (.error (.image .tooShort), journal) := by
  rw [load, read, parse_of_short h]

/-- All other data is one. -/
theorem load_of_long (h : 2 ≤ data.length) (journal : Journal) :
    ∃ image journal', load path (.ok data) journal = (.ok image, journal') ∧
      (Program.bytes data).image? = some image := by
  obtain ⟨image, warnings, hparse⟩ := parse_of_long h
  rw [load, read, hparse]
  exact ⟨image, _, rfl, by rw [Program.image?, hparse]⟩

end Image

/-! ## Runs of images -/

/-- The kinds of fault that end the run of an image. -/
def FaultKind.ofRun : List FaultKind :=
  [.unusedOpcode, .unknownTrapVector, .stepLimitExceeded, .inputUnderflow]

/-- The result tells that the program has halted, or by which fault it was ended. -/
def Result.Decided (r : Result) : Prop :=
  (r.final.status = .halted ∧ r.error = none) ∨
    ∃ report, r.final.status = .faulted ∧ r.error = some report ∧ report.kind ∈ FaultKind.ofRun

theorem Fault.kind_ne_load (cause : Fault) : cause.kind ≠ .load := by
  intro h
  cases cause <;> cases h

/-- Where all instructions are there, the run of an image halts or is ended by one of four
faults. -/
theorem decided_of_run {settings : Settings} {program : Program} {image : Image}
    {terminal : Terminal} {journal : Journal} {fuel : Nat} {c : Conclusion} {r : Result}
    (hset : ∀ op, settings.instructions op = true) (himage : program.image? = some image)
    (h : run fuel settings program terminal journal = some c) (hr : c.result = some r) :
    r.Decided := by
  obtain ⟨j, hs⟩ := Program.session?_of_image? himage settings.sorted.options terminal journal
  obtain ⟨n, t, ending, u, -, hafter, hends, rfl⟩ := (run_eq_some_iff hs).1 h
  obtain ⟨rfl, rfl⟩ | ⟨report, rfl, rfl⟩ := Session.result?_cases hr
  · have hstatus := Session.halted_of_ends hends
      (Session.status_after hafter Status.noConfusion)
    exact .inl ⟨hstatus, rfl⟩
  · have hset' : ∀ op, settings.sorted.instructions op = true := hset
    have hkind := Session.kind_of_ends hset' hends
    have hload : report.kind ≠ .load := by
      cases hends with
      | exhausted _ _ => exact FaultKind.noConfusion
      | faulted _ _ _ => exact Fault.kind_ne_load _
    obtain ⟨hstatus, -⟩ := Session.status_of_ends hends
    exact .inr ⟨report, hstatus, rfl, (List.mem_cons.1 hkind).resolve_left hload⟩

/-- **The run of an image on a console is that of its bytes on a buffer** over the same input: the
machine ends in the same state and with the same error, and the console has sent out what the buffer
shows. -/
theorem buffered_of_console {settings : Settings} {data stdin : List Byte} {image : Image}
    {policy : EndOfInput} {journal : Journal} {fuel : Nat} {c : Conclusion}
    (hend : policy ≠ .interrupt) (himage : (Program.bytes data).image? = some image)
    (h : run fuel settings (.image image) (.console stdin policy) journal = some c)
    (journal' : Journal) :
    ∃ c' r r', run fuel settings (.bytes data) (.buffer (stdin.map BitVec.toNat) policy) journal' =
        some c' ∧ c.result = some r ∧ c'.result = some r' ∧ r.final = r'.final ∧
      r.error = r'.error ∧ c.terminal.written = r'.output := by
  have hwaits : (Terminal.console stdin policy).atEnd ≠ .interrupt := hend
  have hbuffer : Terminal.buffer (stdin.map BitVec.toNat) policy =
      (Terminal.console stdin policy).on .buffer policy := rfl
  have hs : (Program.image image).session? settings.sorted.options (.console stdin policy)
      journal = some _ := rfl
  obtain ⟨c₁, r, r₁, hc₁, hr, hr₁, hsame, houtput, hterminal, -⟩ :=
    results_of_run_alike (Terminal.simulation_device .buffer) hbuffer hs
      (fun _ _ _ hloses => hloses.2.2) hwaits h
  -- and there, the run of the bytes
  have himage' : (Program.image image).image? = some image := rfl
  obtain ⟨c', hc', -, hresult⟩ := run_coincide (.refl settings) himage' himage hc₁ journal'
  rw [hr₁] at hresult
  obtain ⟨r', hr', hrecorded⟩ := Option.map_eq_some_iff.1 hresult.symm
  have hwritten : c₁.terminal.output = c.terminal.written := by
    rw [hterminal]
    rfl
  refine ⟨c', r, r', hc', hr, hr', ?_, ?_, ?_⟩
  · rw [hsame]
    exact (congrArg Result.final hrecorded).symm
  · rw [hsame]
    exact (congrArg Result.error hrecorded).symm
  · rw [← hwritten, ← houtput]
    exact (congrArg Result.output hrecorded).symm

namespace CommandLine

/-! ## Exits -/

/-- The exit code for what a run has come to. -/
def codeOf (result : Option Result) : Nat :=
  match result with
  | none => 130
  | some r =>
    match r.error with
    | none => 0
    | some report => exitCode report.kind

/-- **What is concluded from a run on a console.**  It is an exit, in whatever way the run has
ended. -/
theorem conclude_of_rendered {c : Conclusion} {c' : Plain.Conclusion Console}
    (h : c.Rendered Port.Shows c') :
    ∃ e : Exit, conclude c' = .ok e ∧ e.code = codeOf c.result ∧ e.stdout = c.terminal.written := by
  have hsent := h.port.sent
  have houtcome := h.outcome
  cases hresult : c.result with
  | none =>
      rw [hresult] at houtcome
      have hflushed : c'.port.flush.own.written = c'.port.own.written := by
        simp [Port.flush, Provider.flush, Console.flush, Console.written]
      simp only [conclude, houtcome]
      exact ⟨_, rfl, rfl, hflushed.trans hsent⟩
  | some r =>
      rw [hresult] at houtcome
      have herror : r.plain.error = r.error := rfl
      simp only [conclude, houtcome, codeOf, herror]
      cases r.error <;> exact ⟨_, rfl, rfl, hsent⟩

/-- The exit shows the result: its output on the standard output, and in the exit code how the run
ended. -/
structure Exit.Shows (e : Exit) (r : Plain.Result) : Prop where
  /-- The bytes on the standard output are the codes of the output text. -/
  stdout : e.stdout.map BitVec.toNat = r.output
  /-- Zero means that the program has halted. -/
  halted : e.code = 0 ↔ r.final.status = .halted
  /-- Each fault has a code of its own. -/
  unusedOpcode : e.code = 3 ↔ r.error.map Report.kind = some .unusedOpcode
  unknownTrapVector : e.code = 5 ↔ r.error.map Report.kind = some .unknownTrapVector
  stepLimitExceeded : e.code = 6 ↔ r.error.map Report.kind = some .stepLimitExceeded
  inputUnderflow : e.code = 7 ↔ r.error.map Report.kind = some .inputUnderflow
  /-- There are no other codes. -/
  code : e.code ∈ [0, 3, 5, 6, 7]

/-- An exit shows the result that it comes from, if that is decided. -/
theorem shows_of_decided {e : Exit} {r : Result} (hcode : e.code = codeOf (some r))
    (hstdout : e.stdout = r.output) (hdecided : r.Decided) : e.Shows r.plain := by
  have houtput : e.stdout.map BitVec.toNat = r.plain.output := congrArg _ hstdout
  have hstate : r.plain.final.status = r.final.status := rfl
  have herror : r.plain.error = r.error := rfl
  obtain ⟨hstatus, hnone⟩ | ⟨report, hstatus, hreport, hkind⟩ := hdecided
  · have hzero : e.code = 0 := by simp only [hcode, codeOf, hnone]
    constructor
    case stdout => exact houtput
    all_goals simp [hzero, hstate, herror, hstatus, hnone]
  · have hexit : e.code = exitCode report.kind := by simp only [hcode, codeOf, hreport]
    simp only [FaultKind.ofRun, List.mem_cons, List.not_mem_nil, or_false] at hkind
    obtain hkind | hkind | hkind | hkind := hkind
    all_goals
      constructor
      case stdout => exact houtput
      all_goals simp [hexit, hstate, herror, hstatus, hreport, hkind, exitCode]

/-- The code does not depend on what has been recorded. -/
theorem codeOf_congr {result result' : Option Result}
    (h : result.map Result.unobserved = result'.map Result.unobserved) :
    codeOf result = codeOf result' := by
  cases result with
  | none =>
      cases result' with
      | none => rfl
      | some r' => cases h
  | some r =>
      cases result' with
      | none => cases h
      | some r' =>
          have hsame : r.unobserved = r'.unobserved := Option.some.inj h
          have herror : r.error = r'.error := by
            show r.unobserved.error = r'.unobserved.error
            rw [hsame]
          simp only [codeOf, herror]

/-! ## What a call comes to -/

/-- There is no image to be had at the path. -/
def Unloadable (host : Host) (path : String) : Prop :=
  (∃ reason, host.read path = .error (.system reason)) ∨
    ∃ data, host.read path = .ok data ∧ data.length < 2

variable {host : Host} {a : Arguments} {level : Level}

/-- A level that was not left blank is there. -/
theorem level?_of_ne_blank (h : a.level ≠ .blank) : ∃ level, a.level? = .ok level := by
  unfold Arguments.level?
  split
  · exact ⟨_, rfl⟩
  · exact ⟨_, rfl⟩
  · rename_i hblank
    exact absurd hblank h

/-- A call that leaves an exit has a level, and its path has not been refused. -/
theorem level_read_of_runArguments {fuel : Nat} {instructions : InstructionSet}
    {stdin : List Byte} {interrupted : Bool} {exit : Exit}
    (h : runArguments fuel instructions host a stdin interrupted = some (.ok exit)) :
    (∃ level, a.level? = .ok level) ∧
      (Unloadable host a.image ∨ ∃ data, host.read a.image = .ok data ∧ 2 ≤ data.length) := by
  unfold runArguments loadNamed at h
  cases hlevel : a.level? with
  | error failure => simp [hlevel, bind, Except.bind] at h
  | ok level =>
      refine ⟨⟨level, rfl⟩, ?_⟩
      cases hread : host.read a.image with
      | error e =>
          cases e with
          | system reason => exact .inl (.inl ⟨reason, hread⟩)
          | refused message => simp [hlevel, hread, Image.load, bind, Except.bind] at h
      | ok data =>
          by_cases hlong : 2 ≤ data.length
          · exact .inr ⟨data, rfl, hlong⟩
          · exact .inl (.inr ⟨data, hread, by omega⟩)

/-- **Without an image nothing is run.** -/
theorem runArguments_of_unloadable (hlevel : a.level? = .ok level) (h : Unloadable host a.image) :
    ∃ exit : Exit, exit.code = 2 ∧ exit.stdout = [] ∧ ∀ fuel instructions stdin interrupted,
      runArguments fuel instructions host a stdin interrupted = some (.ok exit) := by
  have hload : ∃ e journal,
      Image.load a.image (host.read a.image) ⟨level, #[]⟩ = (.error (.image e), journal) := by
    obtain ⟨reason, hread⟩ | ⟨data, hread, hshort⟩ := h
    · rw [hread]
      exact ⟨_, _, rfl⟩
    · rw [hread]
      exact ⟨_, _, Image.load_of_short _ hshort _⟩
  obtain ⟨e, journal, hload⟩ := hload
  refine ⟨loadFailure e journal, rfl, rfl, fun fuel instructions stdin interrupted => ?_⟩
  have hnamed : loadNamed host a = .ok (.error (loadFailure e journal)) := by
    simp only [loadNamed, hlevel, hload, bind, Except.bind]
  rw [runArguments, hnamed]

/-- What the end of the input is for a call. -/
def Arguments.policy (a : Arguments) (interrupted : Bool) : EndOfInput :=
  if interrupted then .interrupt else .ofStrict a.strictInput

/-- **With an image** a call runs it on the console, and leaves an exit once the run has come to an
end. -/
theorem runArguments_of_loadNamed {image : Image} {journal : Journal} {o : Options}
    (hnamed : loadNamed host a = .ok (.ok (image, journal))) (ho : a.options? = .ok o) (fuel : Nat)
    (instructions : InstructionSet) (stdin : List Byte) (interrupted : Bool) :
    (run fuel { options := o, instructions } (.image image)
        (.console stdin (a.policy interrupted)) journal = none ∧
      runArguments fuel instructions host a stdin interrupted = none) ∨
    ∃ c exit, run fuel { options := o, instructions } (.image image)
        (.console stdin (a.policy interrupted)) journal = some c ∧
      runArguments fuel instructions host a stdin interrupted = some (.ok exit) ∧
      exit.code = codeOf c.result ∧ exit.stdout = c.terminal.written := by
  have hrun : runArguments fuel instructions host a stdin interrupted =
      (Plain.run fuel { options := o, instructions } (.image image)
        (.console stdin a.strictInput interrupted) journal).map conclude := by
    rw [runArguments, hnamed, ho]
  rw [hrun]
  have hconsole : (Port.console stdin a.strictInput interrupted).Shows
      (.console stdin (a.policy interrupted)) := Port.shows_console stdin a.strictInput interrupted
  obtain ⟨hnone, hnone'⟩ | ⟨c, c', hc, hc', h⟩ :=
    rendered_run Port.simulation hconsole fuel { options := o, instructions } (.image image) journal
  · rw [hnone']
    exact .inl ⟨hnone, rfl⟩
  · obtain ⟨exit, hexit, hcode, hstdout⟩ := conclude_of_rendered h
    rw [hc', Option.map_some, hexit]
    exact .inr ⟨c, exit, hc, rfl, hcode, hstdout⟩

/-- A file that is long enough holds an image. -/
theorem loadNamed_of_data {data : List Byte} (hlevel : a.level? = .ok level)
    (hread : host.read a.image = .ok data) (hlong : 2 ≤ data.length) :
    ∃ image journal, (Program.bytes data).image? = some image ∧
      loadNamed host a = .ok (.ok (image, journal)) := by
  obtain ⟨image, journal, hload, himage⟩ := Image.load_of_long a.image hlong ⟨level, #[]⟩
  refine ⟨image, journal, himage, ?_⟩
  simp only [loadNamed, hlevel, hread, hload, bind, Except.bind]

/-- Where the options are in order, the step limit was not left blank. -/
theorem options?_cases {o : Options} (h : a.options? = .ok o) :
    ∃ limit : Option Int, a.maxSteps = limit.elim .unset .to ∧
      o =
        { startAtOrigin := a.startAtOrigin, maxSteps := limit, strictInput := a.strictInput } := by
  unfold Arguments.options? at h
  dsimp only at h
  split at h
  · rename_i hunset
    cases h
    exact ⟨none, hunset, rfl⟩
  · rename_i limit hlimit
    cases h
    exact ⟨some limit, hlimit, rfl⟩
  · cases h

/-- A call that has loaded an image and leaves an exit has its options in order, and a run. -/
theorem run_of_runArguments {image : Image} {journal : Journal}
    (hnamed : loadNamed host a = .ok (.ok (image, journal))) {fuel : Nat}
    {instructions : InstructionSet} {stdin : List Byte} {interrupted : Bool} {exit : Exit}
    (h : runArguments fuel instructions host a stdin interrupted = some (.ok exit)) :
    ∃ o c, a.options? = .ok o ∧
      run fuel { options := o, instructions } (.image image)
        (.console stdin (a.policy interrupted)) journal = some c ∧
      exit.code = codeOf c.result ∧ exit.stdout = c.terminal.written := by
  cases ho : a.options? with
  | error failure =>
      rw [runArguments, hnamed, ho] at h
      cases h
  | ok o =>
      obtain ⟨-, hnone⟩ | ⟨c, exit', hc, hexit, hcode, hstdout⟩ :=
        runArguments_of_loadNamed hnamed ho fuel instructions stdin interrupted
      · cases h.symm.trans hnone
      · cases h.symm.trans hexit
        exact ⟨o, c, rfl, hc, hcode, hstdout⟩

/-- An exit of a call with an image shows the result of running the file's bytes on a buffer. -/
theorem shows_of_runArguments {data : List Byte} {fuel : Nat} {stdin : List Byte} {exit : Exit}
    (hlevel : a.level? = .ok level) (hread : host.read a.image = .ok data)
    (hlong : 2 ≤ data.length)
    (h : runArguments fuel .complete host a stdin false = some (.ok exit)) :
    ∃ limit : Option Int, a.maxSteps = limit.elim .unset .to ∧ ∀ journal, ∃ c r,
      Plain.runOn ((Text.ofBytes stdin).toList.map Char.toNat) fuel
        { options :=
          { startAtOrigin := a.startAtOrigin, maxSteps := limit, strictInput := a.strictInput } }
        (.bytes data) journal = some c ∧ c.outcome = .ok r ∧ exit.Shows r := by
  obtain ⟨image, journal, himage, hnamed⟩ := loadNamed_of_data hlevel hread hlong
  obtain ⟨o, c, hoptions, hc, hcode, hstdout⟩ := run_of_runArguments hnamed h
  obtain ⟨limit, hlimit, rfl⟩ := options?_cases hoptions
  refine ⟨limit, hlimit, fun journal' => ?_⟩
  obtain ⟨d, r, r', hd, hr, hr', hfinal, herror, houtput⟩ :=
    buffered_of_console (EndOfInput.ofStrict_ne_interrupt a.strictInput) himage hc journal'
  have hdecided : r'.Decided := decided_of_run (fun _ => rfl) himage hd hr'
  have hcode' : exit.code = codeOf (some r') := by
    rw [hcode, hr]
    simp only [codeOf, herror]
  rw [Text.codes_ofBytes]
  obtain ⟨hnone, -⟩ | ⟨d', c', r₁, hd', hc', hr₁, hout⟩ := rendered_runOn
    (stdin.map BitVec.toNat) fuel
    { options :=
      { startAtOrigin := a.startAtOrigin, maxSteps := limit, strictInput := a.strictInput } }
    (.bytes data) journal'
  · cases hd.symm.trans hnone
  · cases hd.symm.trans hd'
    cases hr'.symm.trans hr₁
    exact ⟨c', r'.plain, hc', hout, shows_of_decided hcode' (hstdout.trans houtput) hdecided⟩

/-- **The level makes no difference** to the exit code and to the standard output. -/
theorem runArguments_withLevel {fuel : Nat} {instructions : InstructionSet} {stdin : List Byte}
    {exit : Exit} (h : runArguments fuel instructions host a stdin false = some (.ok exit))
    {given : Setting Level} (hgiven : given ≠ .blank) :
    ∃ exit', runArguments fuel instructions host { a with level := given } stdin false =
        some (.ok exit') ∧ exit'.code = exit.code ∧ exit'.stdout = exit.stdout := by
  obtain ⟨⟨level, hlevel⟩, hread⟩ := level_read_of_runArguments h
  obtain ⟨level', hlevel'⟩ := level?_of_ne_blank (a := { a with level := given }) hgiven
  obtain hun | ⟨data, hread, hlong⟩ := hread
  · obtain ⟨exit₁, hcode, hstdout, hall⟩ := runArguments_of_unloadable hlevel hun
    obtain ⟨exit', hcode', hstdout', hall'⟩ := runArguments_of_unloadable hlevel' hun
    cases h.symm.trans (hall fuel instructions stdin false)
    exact ⟨exit', hall' _ _ _ _, hcode'.trans hcode.symm, hstdout'.trans hstdout.symm⟩
  · obtain ⟨image, journal, himage, hnamed⟩ := loadNamed_of_data hlevel hread hlong
    obtain ⟨image', journal', himage', hnamed'⟩ := loadNamed_of_data hlevel' hread hlong
    obtain ⟨o, c, ho, hc, hcode, hstdout⟩ := run_of_runArguments hnamed h
    cases himage.symm.trans himage'
    have hself : (Program.image image).image? = some image := rfl
    obtain ⟨c', hc', hterminal, hresult⟩ := run_coincide (.refl _) hself hself hc journal'
    have ho' : ({ a with level := given } : Arguments).options? = .ok o := ho
    obtain ⟨hnone, -⟩ | ⟨c₁, exit', hc₁, hexit, hcode', hstdout'⟩ :=
      runArguments_of_loadNamed hnamed' ho' fuel instructions stdin false
    · cases hc'.symm.trans hnone
    · cases hc'.symm.trans hc₁
      refine ⟨exit', hexit, ?_, ?_⟩
      · rw [hcode, hcode', codeOf_congr hresult]
      · rw [hstdout, hstdout', hterminal]

/-- A call that asks for a run is that run. -/
theorem call_of_parse {arguments : List String}
    (hparse : parse host.integer? arguments = .ok (.run a)) (fuel : Nat)
    (instructions : InstructionSet) (stdin : List Byte) (interrupted : Bool) :
    call fuel instructions host arguments stdin interrupted =
      runArguments fuel instructions host a stdin interrupted := by
  rw [call, plan, hparse]

/-- `exit.Refines fuel host arguments a stdin` : the exit of the call with these arguments, which
were read as `a`, tells of a run of the bytes at the path. -/
structure Exit.Refines (exit : Exit) (fuel : Nat) (host : Host) (arguments : List String)
    (a : Arguments) (stdin : List Byte) : Prop where
  /-- The code 2 means that there is no image to be had. -/
  unloadable : exit.code = 2 ↔ Unloadable host a.image
  /-- Then nothing is written, and nothing is run: with no fuel, with other instructions and on
  another input the call comes to the same. -/
  idle : exit.code = 2 → exit.stdout = [] ∧ ∀ fuel instructions stdin interrupted,
    call fuel instructions host arguments stdin interrupted = some (.ok exit)
  /-- Otherwise there is an image, -/
  loadable : exit.code ≠ 2 → ∃ data, host.read a.image = .ok data ∧ 2 ≤ data.length
  /-- and the exit shows the result of running the bytes of the file with the same options on a
  buffer over the input as text. -/
  shows : ∀ data, host.read a.image = .ok data → 2 ≤ data.length →
    ∃ limit : Option Int, a.maxSteps = limit.elim .unset .to ∧ ∀ journal, ∃ c r,
      Plain.runOn ((Text.ofBytes stdin).toList.map Char.toNat) fuel
        { options :=
          { startAtOrigin := a.startAtOrigin, maxSteps := limit, strictInput := a.strictInput } }
        (.bytes data) journal = some c ∧ c.outcome = .ok r ∧ exit.Shows r
  /-- The code 4 does not occur. -/
  ne_four : exit.code ≠ 4
  /-- The level of messages changes neither the code nor the standard output. -/
  level : ∀ arguments' level, parse host.integer? arguments' = .ok (.run { a with level }) →
    level ≠ .blank →
    ∃ exit', call fuel .complete host arguments' stdin false = some (.ok exit') ∧
      exit'.code = exit.code ∧ exit'.stdout = exit.stdout

/-- **A call is a run of the file's bytes.**  Whatever files there are and however integers are
read, where a call leaves an exit, it tells of a run of the bytes at the path that the arguments
name. -/
theorem call_refines_run {fuel : Nat} {host : Host} {arguments : List String} {a : Arguments}
    {stdin : List Byte} {exit : Exit} (hparse : parse host.integer? arguments = .ok (.run a))
    (h : call fuel .complete host arguments stdin false = some (.ok exit)) :
    exit.Refines fuel host arguments a stdin := by
  rw [call_of_parse hparse] at h
  have hlevels : ∀ arguments' given,
      parse host.integer? arguments' = .ok (.run { a with level := given }) → given ≠ .blank →
      ∃ exit', call fuel .complete host arguments' stdin false = some (.ok exit') ∧
        exit'.code = exit.code ∧ exit'.stdout = exit.stdout := by
    intro arguments' given hparse' hgiven
    rw [call_of_parse hparse']
    exact runArguments_withLevel h hgiven
  obtain ⟨⟨level, hlevel⟩, hun | ⟨data, hread, hlong⟩⟩ := level_read_of_runArguments h
  · obtain ⟨exit', hcode, hstdout, hall⟩ := runArguments_of_unloadable hlevel hun
    cases h.symm.trans (hall fuel .complete stdin false)
    constructor
    case unloadable => exact iff_of_true hcode hun
    case idle =>
      refine fun _ => ⟨hstdout, fun fuel instructions stdin interrupted => ?_⟩
      rw [call_of_parse hparse]
      exact hall fuel instructions stdin interrupted
    case loadable => exact fun hother => absurd hcode hother
    case shows =>
      intro data hread hlong
      obtain ⟨reason, herror⟩ | ⟨data', hread', hshort⟩ := hun
      · cases hread.symm.trans herror
      · cases hread.symm.trans hread'
        omega
    case ne_four => omega
    case level => exact hlevels
  · have hun : ¬ Unloadable host a.image := by
      rintro (⟨reason, herror⟩ | ⟨data', hread', hshort⟩)
      · cases hread.symm.trans herror
      · cases hread.symm.trans hread'
        omega
    obtain ⟨limit, hlimit, hshows⟩ := shows_of_runArguments hlevel hread hlong h
    obtain ⟨c, r, -, -, hshown⟩ := hshows ⟨level, #[]⟩
    have hcode := hshown.code
    simp only [List.mem_cons, List.not_mem_nil, or_false] at hcode
    constructor
    case unloadable => exact iff_of_false (by omega) hun
    case idle => omega
    case loadable => exact fun _ => ⟨data, hread, hlong⟩
    case shows =>
      intro data' hread' _
      cases hread.symm.trans hread'
      exact ⟨limit, hlimit, hshows⟩
    case ne_four => omega
    case level => exact hlevels

/-- A host with one file, a program that echoes two characters. -/
def echoing : Host where
  read path :=
    if path = "/images/a.obj" then .ok [0x30, 0x00, 0xF0, 0x23, 0xF0, 0x23]
    else .error (.system "No such file or directory")
  integer? := Text.decimal?

/-- A call that loads it and runs it comes to what its run on the console comes to. -/
theorem call_echoing {arguments : List String} {a : Arguments} {o : Options} {c : Conclusion}
    (hparse : parse echoing.integer? arguments = .ok (.run a)) (himage : a.image = "/images/a.obj")
    (hlevel : a.level? = .ok .warning) (ho : a.options? = .ok o) (interrupted : Bool)
    (hrun : run 9 { options := o } (.image ⟨0x3000, [0xF023, 0xF023]⟩)
      (.console [0xE9] (a.policy interrupted)) ⟨.warning, #[]⟩ = some c) :
    ∃ exit, call 9 .complete echoing arguments [0xE9] interrupted = some (.ok exit) ∧
      exit.code = codeOf c.result ∧ exit.stdout = c.terminal.written := by
  have hnamed : loadNamed echoing a =
      .ok (.ok (⟨0x3000, [0xF023, 0xF023]⟩, ⟨.warning, #[]⟩)) := by
    simp only [loadNamed, hlevel, himage, bind, Except.bind]
    rfl
  rw [call_of_parse hparse]
  obtain ⟨hnone, -⟩ | ⟨c', exit, hc', hexit⟩ :=
    runArguments_of_loadNamed hnamed ho 9 .complete [0xE9] interrupted
  · cases hrun.symm.trans hnone
  · cases hrun.symm.trans hc'
    exact ⟨exit, hexit⟩

theorem call_refines_run_echoing :
    ∃ exit c r, call 9 .complete echoing ["--strict", "/images/a.obj"] [0xE9] false =
        some (.ok exit) ∧ exit.code = 7 ∧ exit.stdout = [0xE9] ∧
      ¬ Unloadable echoing "/images/a.obj" ∧
      Plain.runOn ((Text.ofBytes [0xE9]).toList.map Char.toNat) 9
        { options := { strictInput := true } }
        (.bytes [0x30, 0x00, 0xF0, 0x23, 0xF0, 0x23]) ⟨.error, #[]⟩ = some c ∧
      c.outcome = .ok r ∧ exit.Shows r ∧
      ∃ exit', call 9 .complete echoing
          ["--strict-input", "--log-level", "ERROR", "/images/a.obj"] [0xE9] false =
        some (.ok exit') ∧ exit'.code = 7 := by
  have hparse : parse echoing.integer? ["--strict", "/images/a.obj"] =
      .ok (.run { image := "/images/a.obj", strictInput := true }) := rfl
  have hparse' : parse echoing.integer?
        ["--strict-input", "--log-level", "ERROR", "/images/a.obj"] =
      .ok (.run { image := "/images/a.obj", strictInput := true, level := .to .error }) := rfl
  have hread : echoing.read "/images/a.obj" = .ok [0x30, 0x00, 0xF0, 0x23, 0xF0, 0x23] := rfl
  have hrun : run 9 { options := { strictInput := true } } (.image ⟨0x3000, [0xF023, 0xF023]⟩)
      (.console [0xE9] .underflow) ⟨.warning, #[]⟩ = some _ := rfl
  obtain ⟨exit, hcall, hcode, hstdout⟩ := call_echoing hparse rfl rfl rfl false hrun
  have hrefines := call_refines_run hparse hcall
  obtain ⟨limit, hlimit, hruns⟩ := hrefines.shows _ hread (by decide)
  have hunlimited : limit = none := by
    cases limit with
    | none => rfl
    | some _ => cases hlimit
  subst hunlimited
  obtain ⟨c, r, hbuffered, hr, hshown⟩ := hruns ⟨.error, #[]⟩
  obtain ⟨exit', hcall', hcode', -⟩ := hrefines.level _ _ hparse' (by decide)
  have hload : ¬ Unloadable echoing "/images/a.obj" := by
    rw [← hrefines.unloadable, hcode]
    decide
  exact ⟨exit, c, r, hcall, hcode, hstdout, hload, hbuffered, hr, hshown, exit', hcall',
    hcode'.trans hcode⟩

end CommandLine

end LittleComputer
