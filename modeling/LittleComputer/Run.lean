import LittleComputer.Image.Load
import LittleComputer.Machine.Execute
import LittleComputer.Run.Options
import LittleComputer.Run.Result

/-!
# Running programs

A session is a machine under way together with what has been counted, traced and reported so far.
`Session.turn` takes it one instruction further or ends it, `Session.runFor` repeats turns for as
long as its fuel lasts, and `run` does all of it from a program to a result.  A run that has not
ended within its fuel, or that never will, gives nothing.
-/

namespace LittleComputer

/-- What a session goes by. -/
structure Settings where
  /-- How the program is to be run. -/
  options : Options := {}
  /-- What the machine implements. -/
  instructions : InstructionSet := .complete

/-- A run under way. -/
structure Session where
  /-- The machine. -/
  machine : Machine
  /-- How many instructions have been completed. -/
  steps : Nat := 0
  /-- The rows for them, if a trace was asked for. -/
  trace : Array TraceRow := #[]
  /-- What has been reported. -/
  journal : Journal

/-- How a run ends. -/
inductive Ending where
  /-- The program halted. -/
  | halted
  /-- The program was stopped by a fault. -/
  | faulted (report : Report)
  /-- The user interrupted it. -/
  | interrupted
  deriving DecidableEq, Repr

/-- What one turn of a session comes to. -/
inductive Turn where
  /-- An instruction has been completed. -/
  | next (session : Session)
  /-- The run is over. -/
  | over (ending : Ending) (session : Session)
  /-- The turn never ends. -/
  | endless

namespace Session

/-- The session of a program that is about to start. -/
def start (options : Options) (image : Image) (terminal : Terminal) (journal : Journal) :
    Session :=
  let processor := Processor.reset (options.start image.origin)
  let memory := Memory.empty.assign options.initialMemory.entries
  { machine := { processor, memory := (memory.load image.origin image.words).2, terminal }
    journal := journal.add .info .runner fun _ =>
      "Starting execution at " ++ Text.address processor.pc.toNat }

/-- Ends the session with a fault: the processor stops, and the journal tells why. -/
def fail (s : Session) (report : Report) : Turn :=
  .over (.faulted report)
    { s with
      machine.processor.status := .faulted
      journal := s.journal.add .warning .runner fun _ =>
        report.kind.name ++ " at " ++ Text.address report.addr.toNat ++ ": " ++ report.message }

/-- The session after an instruction at `address` has been completed. -/
def advance (o : Options) (s : Session) (address word : Word) : Session :=
  match s with
  | ⟨machine, steps, trace, journal⟩ =>
    let row (_ : Unit) :=
      TraceRow.after machine (steps + 1) address word o.watch o.traceTerminal
    { steps := steps + 1
      trace := if o.trace then trace.push (row ()) else trace
      machine
      journal := journal.add .debug .runner fun _ =>
        Text.address address.toNat ++ ": " ++ Text.hex 4 word.toNat ++ " "
          ++ (decode word.toNat).mnemonic }

/-- Takes a session one instruction further.  The step limit counts completed instructions and is
checked before the next one is fetched; a fault in an instruction is reported with its address and,
once it has been fetched, its word. -/
def turn (settings : Settings) (s : Session) : Turn :=
  if s.machine.processor.running then
    match settings.options.exhausted? s.steps with
    | some limit =>
      let cause := Fault.stepLimitExceeded limit
      s.fail
        { kind := cause.kind, message := cause.message, step := s.steps
          addr := s.machine.processor.pc.toNat }
    | none =>
      match s with
      | ⟨machine, steps, trace, journal⟩ =>
        let address := machine.processor.pc
        match Exec.cycle settings.instructions machine with
        | .ok word machine =>
          .next (advance settings.options ⟨machine, steps, trace, journal⟩ address word)
        | .error (.fault cause) machine =>
          fail ⟨machine, steps, trace, journal⟩
            { kind := cause.kind, message := cause.message, step := steps
              addr := address.toNat, instr := machine.processor.ir }
        | .error .interrupted machine => .over .interrupted ⟨machine, steps, trace, journal⟩
        | .error .endless _ => .endless
  else .over .halted s

/-- Closes a session: whatever way it ended, the output is pushed out. -/
def close (s : Session) (ending : Ending) : Session :=
  { s with
    machine.terminal := s.machine.terminal.flush
    journal := match ending with
      | .halted => s.journal.add .info .runner fun _ =>
          "Halted after " ++ toString s.steps ++ " steps"
      | _ => s.journal }

/-- Takes turns until the run is over, at most as many as there is fuel. -/
def runFor (settings : Settings) : (fuel : Nat) → Session → Option (Ending × Session)
  | 0, _ => none
  | fuel + 1, s =>
    match s.turn settings with
    | .next s => runFor settings fuel s
    | .over ending s => some (ending, s.close ending)
    | .endless => none

/-- The result of a session that is over, unless it was interrupted. -/
def result? (o : Options) (s : Session) (ending : Ending) : Option Result :=
  match ending with
  | .halted => some (report none)
  | .faulted r => some (report (some r))
  | .interrupted => none
where
  /-- The result with the given error. -/
  report (error : Option Report) : Result :=
    { output := s.machine.terminal.output
      steps := s.steps
      final := s.machine.processor
      watch := o.watch
      trace := s.trace.toList
      error }

end Session

/-- A program to be run: an image, or the file form of one. -/
inductive Program where
  /-- An image. -/
  | image (image : Image)
  /-- Bytes that should be an image. -/
  | bytes (data : List Byte)
  deriving DecidableEq, Repr

/-- What is left of a run. -/
structure Conclusion where
  /-- The result, unless the run was interrupted. -/
  result : Option Result
  /-- The terminal as the run left it. -/
  terminal : Terminal
  /-- What was reported. -/
  journal : Journal

/-- Runs an image on a terminal. -/
def runImage (fuel : Nat) (settings : Settings) (image : Image) (terminal : Terminal)
    (journal : Journal) : Option Conclusion :=
  let options := settings.options.sortWatch
  match (Session.start options image terminal journal).runFor { settings with options } fuel with
  | some (ending, s) =>
    some
      { result := s.result? options ending
        terminal := s.machine.terminal
        journal := s.journal }
  | none => none

/-- The result of a program that is no image: nothing has run, and the watch list is as it was. -/
def unparsed (o : Options) (e : Image.Error) : Result :=
  { output := []
    steps := 0
    final := { Processor.reset defaultStart with status := .faulted }
    watch := o.watch
    trace := []
    error := some e.report }

/-- Runs a program on a terminal. -/
def run (fuel : Nat) (settings : Settings) (program : Program) (terminal : Terminal)
    (journal : Journal) : Option Conclusion :=
  match program with
  | .image image => runImage fuel settings image terminal journal
  | .bytes data =>
    match Image.read data journal with
    | (.ok image, journal) => runImage fuel settings image terminal journal
    | (.error e, journal) =>
      some { result := some (unparsed settings.options e), terminal, journal }

/-- Runs a program on a fresh buffer over the given character codes. -/
def runOn (codes : List Nat) (fuel : Nat) (settings : Settings) (program : Program)
    (journal : Journal) : Option Conclusion :=
  run fuel settings program
    (Terminal.buffer codes (.ofStrict settings.options.strictInput)) journal

end LittleComputer
