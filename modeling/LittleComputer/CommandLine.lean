import LittleComputer.CommandLine.Arguments
import LittleComputer.CommandLine.Usage
import LittleComputer.Plain.Run

/-!
# The command line program

Reads its arguments, loads the image they name and runs it on the console.  The exit code tells how
that went.  A call breaks off (`Failure`) when it needs the value of an option that was left blank,
when the image is named by a text that is no path, and when anything but the user breaks the run
off.  What a call finds around it, the files and the form of integers, is its `Host`.
-/

namespace LittleComputer.CommandLine

/-- What a call finds around it. -/
structure Host where
  /-- Reads the file at a path. -/
  read : String → Except ReadError (List Byte)
  /-- Reads an integer. -/
  integer? : String → Option Int

/-- What a call leaves behind. -/
structure Exit where
  /-- The exit code. -/
  code : Nat
  /-- What was written to the standard output. -/
  stdout : List Byte := []
  /-- What was written to the standard error output. -/
  stderr : String := ""
  deriving DecidableEq, Repr

/-- Why a call breaks off without an exit. -/
inductive Failure where
  /-- The level was left blank. -/
  | blankLevel
  /-- The step limit was left blank. -/
  | blankStepLimit
  /-- The image cannot be named like this. -/
  | badPath (message : String)
  /-- The run was broken off. -/
  | escaped (e : Break)
  deriving DecidableEq, Repr

/-- The message when a call breaks off. -/
def Failure.message : Failure → String
  | blankLevel => "attribute name must be string, not 'list'"
  | blankStepLimit => "'>=' not supported between instances of 'int' and 'list'"
  | badPath message => message
  | escaped e => e.message

/-- The exit code for a kind of fault of a running program. -/
def exitCode : FaultKind → Nat
  | .unusedOpcode => 3
  | .unknownTrapVector => 5
  | .stepLimitExceeded => 6
  | .inputUnderflow => 7
  | _ => 4

/-- The bytes of a text in the program's own words, which are all ASCII. -/
def bytesOf (s : String) : List Byte := s.toList.map fun c => BitVec.ofNat 8 c.toNat

/-- What a wrong command line comes to. -/
def UsageError.exit (e : UsageError) : Exit where
  code := 1
  stderr := usage ++ programName ++ ": error: " ++ e.message ++ "\n"

/-- What a failed load comes to. -/
def loadFailure (e : Image.Error) (journal : Journal) : Exit where
  code := 2
  stderr := ofLines (journal.lines ++ [e.message])

/-- How a fault is shown to the user. -/
def faultLine (report : Report) : String :=
  report.message ++ " (at " ++ Text.address report.addr.toNat ++ ", step "
    ++ toString report.step ++ ")"

/-- What a run comes to.  If the user has interrupted it, the output is pushed out once more. -/
def conclude (c : Plain.Conclusion Console) : Except Failure Exit :=
  match c.outcome with
  | .ok result =>
    match result.error with
    | none => .ok (exit 0 c.port c.journal [])
    | some report => .ok (exit (exitCode report.kind) c.port c.journal [faultLine report])
  | .error (.stop .interrupted) =>
    .ok (exit 130 c.port.flush (c.journal.add .info .commandLine fun _ => "Interrupted") [""])
  | .error e => .error (.escaped e)
where
  /-- The exit with this code, when these lines have been said last. -/
  exit (code : Nat) (port : Port Console) (journal : Journal) (last : List String) : Exit :=
    { code, stdout := port.own.written, stderr := ofLines (journal.lines ++ last) }

/-- What the arguments come to at once, or the run that they ask for. -/
def plan (integer? : String → Option Int) (arguments : List String) : Except Exit Arguments :=
  match parse integer? arguments with
  | .error e => .error e.exit
  | .ok .help => .error { code := 0, stdout := bytesOf help }
  | .ok .version => .error { code := 0, stdout := bytesOf versionLine }
  | .ok (.run a) => .ok a

/-- The level of messages that arguments ask for. -/
def Arguments.level? (a : Arguments) : Except Failure Level :=
  match a.level with
  | .unset => .ok .warning
  | .to level => .ok level
  | .blank => .error .blankLevel

/-- The options of the run that arguments ask for. -/
def Arguments.options? (a : Arguments) : Except Failure Options :=
  let options (maxSteps : Option Int) : Options :=
    { startAtOrigin := a.startAtOrigin, maxSteps, strictInput := a.strictInput }
  match a.maxSteps with
  | .unset => .ok (options none)
  | .to limit => .ok (options (some limit))
  | .blank => .error .blankStepLimit

/-- Loads the image that arguments name: the image and the journal, or what a failed load comes
to. -/
def loadNamed (host : Host) (a : Arguments) :
    Except Failure (Except Exit (Image × Journal)) := do
  let level ← a.level?
  match Image.load a.image (host.read a.image) ⟨level, #[]⟩ with
  | (.ok image, journal) => .ok (.ok (image, journal))
  | (.error (.image e), journal) => .ok (.error (loadFailure e journal))
  | (.error (.refused message), _) => .error (.badPath message)

/-- Loads the image that the arguments name and runs it on a console with the given input. -/
def runArguments (fuel : Nat) (instructions : InstructionSet) (host : Host) (a : Arguments)
    (stdin : List Byte) (interrupted : Bool) : Option (Except Failure Exit) :=
  match loadNamed host a, a.options? with
  | .error failure, _ => some (.error failure)
  | .ok (.error e), _ => some (.ok e)
  | .ok (.ok _), .error failure => some (.error failure)
  | .ok (.ok (image, journal)), .ok options =>
    (Plain.run fuel { options, instructions } (.image image)
      (.console stdin a.strictInput interrupted) journal).map conclude

/-- A whole call of the program: its arguments and its standard input, after which the user may
interrupt it.  It ends in an exit or breaks off. -/
def call (fuel : Nat) (instructions : InstructionSet) (host : Host) (arguments : List String)
    (stdin : List Byte) (interrupted : Bool) : Option (Except Failure Exit) :=
  match plan host.integer? arguments with
  | .error e => some (.ok e)
  | .ok a => runArguments fuel instructions host a stdin interrupted

end LittleComputer.CommandLine
