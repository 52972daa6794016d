import LittleComputer.Plain.Execute
import LittleComputer.Run

/-!
# Running programs on plain integers

Sessions, turns and runs of the plain machine, on a port of either kind.  A fault of the program is
caught and reported; anything else that breaks an action off escapes from the run, after the output
has been pushed out, and the run has no result.
-/

namespace LittleComputer.Plain

/-! ## Rows and results -/

/-- One completed instruction. -/
structure TraceRow where
  /-- How many instructions have been completed, this one included. -/
  step : Nat
  /-- Where the instruction was. -/
  addr : Int
  /-- The word that was executed. -/
  instr : Int
  /-- The registers afterwards. -/
  registers : List Int
  /-- The program counter afterwards. -/
  pc : Int
  /-- The flags afterwards. -/
  cond : Condition
  /-- The watched cells afterwards. -/
  watched : List (Int × Int)
  /-- The codes of the last character read and the last one written by the instruction, if they are
  recorded. -/
  codes : Option (Option Nat × Option Int)
  deriving DecidableEq, Repr

/-- The row for an instruction that has left the machine in the given state. -/
def TraceRow.after {σ : Type} (m : Machine σ) (step : Nat) (addr instr : Int) (watch : List Int)
    (withCodes : Bool) : Except IndexError TraceRow :=
  (m.memory.watched watch).map fun watched =>
    { step, addr, instr
      registers := m.processor.registers.toList
      pc := m.processor.pc
      cond := m.processor.cond
      watched
      codes := if withCodes then some (m.port.lastIn, m.port.lastOut) else none }

/-- The result of a run. -/
structure Result where
  /-- The codes of the output text. -/
  output : List Nat
  /-- How many instructions have been completed. -/
  steps : Nat
  /-- The processor at the end. -/
  final : Processor
  /-- The watch list. -/
  watch : List Int
  /-- A row for each completed instruction, if a trace was asked for. -/
  trace : List TraceRow
  /-- What went wrong, if anything did. -/
  error : Option Report
  deriving DecidableEq, Repr

/-! ## Sessions -/

variable {σ : Type} [Provider σ]

/-- A run under way. -/
structure Session (σ : Type) where
  /-- The machine. -/
  machine : Machine σ
  /-- How many instructions have been completed. -/
  steps : Nat := 0
  /-- The rows for them, if a trace was asked for. -/
  trace : Array TraceRow := #[]
  /-- What has been reported. -/
  journal : Journal

/-- How a run ends. -/
inductive Ending where
  /-- The program halted. -/
  | halted
  /-- The program was stopped by a fault. -/
  | faulted (report : Report)
  /-- Something else broke it off. -/
  | escaped (e : Break)
  deriving DecidableEq, Repr

/-- What one turn of a session comes to. -/
inductive Turn (σ : Type) where
  /-- An instruction has been completed. -/
  | next (session : Session σ)
  /-- The run is over. -/
  | over (ending : Ending) (session : Session σ)
  /-- The turn never ends. -/
  | endless

namespace Session

/-- The session of a program that is about to start with the given memory. -/
def startWith (memory : Memory) (options : Options) (image : Image) (port : Port σ)
    (journal : Journal) : Except Break (Session σ) :=
  match memory.load image.origin image.words with
  | (.ok _, memory) =>
    let processor := Processor.reset (options.start image.origin)
    .ok
      { machine := { processor, memory, port }
        journal := journal.add .info .runner fun _ =>
          "Starting execution at " ++ Text.address processor.pc.toNat }
  | (.error e, _) => .error (.index e)

/-- Ends the session with a fault: the processor stops, and the journal tells why. -/
def fail (s : Session σ) (report : Report) : Turn σ :=
  .over (.faulted report)
    { s with
      machine.processor.status := .faulted
      journal := s.journal.add .warning .runner fun _ =>
        report.kind.name ++ " at " ++ Text.address report.addr.toNat ++ ": " ++ report.message }

/-- What comes of the session after an instruction at `address` has been completed. -/
def advance (o : Options) (s : Session σ) (address word : Int) : Turn σ :=
  match s with
  | ⟨machine, steps, trace, journal⟩ =>
    let journal := journal.add .debug .runner fun _ =>
      Text.address address.toNat ++ ": " ++ Text.hex 4 word.toNat ++ " " ++ (decode word).mnemonic
    if o.trace then
      match TraceRow.after machine (steps + 1) address word o.watch o.traceTerminal with
      | .ok row => .next ⟨machine, steps + 1, trace.push row, journal⟩
      | .error e => .over (.escaped (.index e)) ⟨machine, steps + 1, trace, journal⟩
    else .next ⟨machine, steps + 1, trace, journal⟩

/-- Takes a session one instruction further. -/
def turn (settings : Settings) (s : Session σ) : Turn σ :=
  if s.machine.processor.running then
    match settings.options.exhausted? s.steps with
    | some limit =>
      let cause := Fault.stepLimitExceeded limit
      s.fail
        { kind := cause.kind, message := cause.message, step := s.steps
          addr := s.machine.processor.pc }
    | none =>
      match s with
      | ⟨machine, steps, trace, journal⟩ =>
        let address := machine.processor.pc
        match Exec.cycle settings.instructions machine with
        | .ok word machine =>
          advance settings.options ⟨machine, steps, trace, journal⟩ address word
        | .error (.stop (.fault cause)) machine =>
          fail ⟨machine, steps, trace, journal⟩
            { kind := cause.kind, message := cause.message, step := steps
              addr := address, instr := machine.processor.ir }
        | .error (.stop .endless) _ => .endless
        | .error e machine => .over (.escaped e) ⟨machine, steps, trace, journal⟩
  else .over .halted s

/-- Closes a session: whatever way it ended, the output is pushed out. -/
def close (s : Session σ) (ending : Ending) : Session σ :=
  { s with
    machine.port := s.machine.port.flush
    journal := match ending with
      | .halted => s.journal.add .info .runner fun _ =>
          "Halted after " ++ toString s.steps ++ " steps"
      | _ => s.journal }

/-- Takes turns until the run is over, at most as many as there is fuel. -/
def runFor (settings : Settings) : (fuel : Nat) → Session σ → Option (Ending × Session σ)
  | 0, _ => none
  | fuel + 1, s =>
    match s.turn settings with
    | .next s => runFor settings fuel s
    | .over ending s => some (ending, s.close ending)
    | .endless => none

/-- What a session that is over gives: its result, or what escaped from it. -/
def outcome (o : Options) (s : Session σ) (ending : Ending) : Except Break Result :=
  match ending with
  | .halted => .ok (report none)
  | .faulted r => .ok (report (some r))
  | .escaped e => .error e
where
  /-- The result with the given error. -/
  report (error : Option Report) : Result :=
    { output := s.machine.port.output
      steps := s.steps
      final := s.machine.processor
      watch := o.watch
      trace := s.trace.toList
      error }

end Session

/-! ## Runs -/

/-- What is left of a run. -/
structure Conclusion (σ : Type) where
  /-- The result, or what escaped from the run. -/
  outcome : Except Break Result
  /-- The port as the run left it. -/
  port : Port σ
  /-- What was reported. -/
  journal : Journal

/-- What is left of a run that has ended with this session. -/
def Session.conclusion (o : Options) (s : Session σ) (ending : Ending) : Conclusion σ where
  outcome := s.outcome o ending
  port := s.machine.port
  journal := s.journal

/-- The result of a program that is no image: nothing has run, and the watch list is as it was. -/
def unparsed (o : Options) (e : Image.Error) : Result :=
  { output := []
    steps := 0
    final := { Processor.reset defaultStart with status := .faulted }
    watch := o.watch
    trace := []
    error := some e.report }

/-- The first session of a run, or what is left of the run if there is none.  Memory is filled
before the program is looked at, and the image comes on top of what it is filled with. -/
def prepare (settings : Settings) (program : Program) (port : Port σ) (journal : Journal) :
    Except (Conclusion σ) (Session σ) :=
  match Memory.empty.assign settings.options.initialMemory.entries with
  | (.error e, _) => .error { outcome := .error (.index e), port, journal }
  | (.ok (), memory) =>
    match program with
    | .image image => place memory image journal
    | .bytes data =>
      match Image.read data journal with
      | (.ok image, journal) => place memory image journal
      | (.error e, journal) =>
        .error { outcome := .ok (unparsed settings.options e), port, journal }
where
  /-- The session that starts with the image in this memory. -/
  place (memory : Memory) (image : Image) (journal : Journal) :
      Except (Conclusion σ) (Session σ) :=
    match Session.startWith memory settings.options.sortWatch image port journal with
    | .ok s => .ok s
    | .error e => .error { outcome := .error e, port, journal }

/-- Runs a program on a port. -/
def run (fuel : Nat) (settings : Settings) (program : Program) (port : Port σ)
    (journal : Journal) : Option (Conclusion σ) :=
  match prepare settings program port journal with
  | .error c => some c
  | .ok s =>
    let options := settings.options.sortWatch
    (s.runFor { settings with options } fuel).map fun (ending, s) => s.conclusion options ending

/-- Runs a program on a fresh buffer over the given character codes. -/
def runOn (codes : List Nat) (fuel : Nat) (settings : Settings) (program : Program)
    (journal : Journal) : Option (Conclusion Buffer) :=
  run fuel settings program (.buffer codes settings.options.strictInput) journal

end LittleComputer.Plain
