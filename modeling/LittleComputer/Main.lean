import LittleComputer.CommandLine
import LittleComputer.Path

/-!
# The program

The outer layer of the command line: files, standard input and the two outputs.  It takes the
session turn by turn.  A turn that finds no character pending stops as if it were interrupted; the
character is then read from the standard input and the turn is taken again, so that all output
pushed out before is visible while the program waits.
-/

namespace LittleComputer.Main

/-- The system's texts for the errors of reading a file, by number. -/
def reasonOf? : Nat → Option String
  | 2 => some "No such file or directory"
  | 20 => some "Not a directory"
  | 21 => some "Is a directory"
  | 36 => some "File name too long"
  | _ => none

/-- Why a file access has failed.  The system's error number may come with either sign. -/
def reason (e : IO.Error) : String :=
  let number? : Option UInt32 := match e with
    | .noFileOrDirectory _ number _ | .inappropriateType _ number _
    | .invalidArgument _ number _ | .resourceExhausted _ number _ => some number
    | _ => none
  (number?.bind fun number => reasonOf? number.toInt32.toInt.natAbs).getD (toString e)

/-- Reads the file at a path. -/
def read (path : String) : IO (Except ReadError (List Byte)) := do
  if path.toList.contains '\x00' then return .error (.refused "embedded null byte")
  try
    let bytes ← IO.FS.readBinFile (Path.parse path).render
    return .ok (bytes.toList.map UInt8.toBitVec)
  catch e => return .error (.system (reason e))

/-- Writes bytes to the standard output. -/
def write (bytes : List Byte) : IO Unit := do
  (← IO.getStdout).write (ByteArray.mk (bytes.map UInt8.ofBitVec).toArray)

/-- Lets an exit take place. -/
def leave (e : CommandLine.Exit) : IO UInt32 := do
  write e.stdout
  (← IO.getStdout).flush
  (← IO.getStderr).putStr e.stderr
  return UInt32.ofNat e.code

/-- Shows what has been reported since the last time, and forgets it. -/
def showJournal (journal : Journal) : IO Journal := do
  (← IO.getStderr).putStr (CommandLine.ofLines journal.lines)
  return { journal with entries := #[] }

/-- Sends out what has been sent to the console since the last time, and forgets it. -/
def showConsole (console : Console) : IO Console := do
  for sent in console.stdout do
    match sent with
    | .byte byte => write [byte]
    | .flushed => (← IO.getStdout).flush
  return { console with stdout := #[] }

/-- Shows what a session has done since the last time. -/
def showAll (s : Plain.Session Console) : IO (Plain.Session Console) := do
  let journal ← showJournal s.journal
  let console ← showConsole s.machine.port.own
  return { s with journal, machine.port.own := console }

/-- Takes turns until the run is over; gives the end and the session. -/
partial def play (settings : Settings) (s : Plain.Session Console) :
    IO (Plain.Ending × Plain.Session Console) := do
  match s.turn settings with
  | .next s =>
    let s ← showAll { s with machine.port.own.interrupts := true }
    play settings s
  | .over (.escaped (.stop .interrupted)) _ =>
    let bytes ← (← IO.getStdin).read 1
    match bytes.toList with
    | byte :: _ => play settings { s with machine.port.own.stdin := [byte.toBitVec] }
    | [] => play settings { s with machine.port.own.interrupts := false }
  | .over ending s => return (ending, ← showAll (s.close ending))
  | .endless => wait
where
  /-- Waits for ever. -/
  wait : IO (Plain.Ending × Plain.Session Console) := do
    IO.sleep 1000
    wait

/-- Breaks a call off. -/
def breakOff (failure : CommandLine.Failure) : IO UInt32 := do
  (← IO.getStderr).putStr (CommandLine.ofLines [failure.message])
  return 1

/-- Lets what a run has come to take place. -/
def finish (c : Plain.Conclusion Console) : IO UInt32 :=
  match CommandLine.conclude c with
  | .ok e => leave e
  | .error failure => breakOff failure

/-- Runs an image on the console. -/
def run (options : Options) (image : Image) (journal : Journal) : IO UInt32 := do
  let port := Port.console [] options.strictInput true
  match Plain.prepare { options } (.image image) port journal with
  | .error c => finish c
  | .ok s =>
    let options := options.sortWatch
    let (ending, s) ← play { options } (← showAll s)
    finish (s.conclusion options ending)

/-- Loads the image that the arguments name and runs it. -/
def load (a : CommandLine.Arguments) (level : Level) : IO UInt32 := do
  match Image.load a.image (← read a.image) ⟨level, #[]⟩, a.options? with
  | (.error (.refused message), _), _ => breakOff (.badPath message)
  | (.error (.image e), journal), _ => leave (CommandLine.loadFailure e journal)
  | (.ok _, journal), .error failure =>
    discard <| showJournal journal
    breakOff failure
  | (.ok image, journal), .ok options => run options image journal

end LittleComputer.Main

open LittleComputer in
/-- The program. -/
def main (arguments : List String) : IO UInt32 := do
  match CommandLine.plan Text.decimal? arguments with
  | .error e => Main.leave e
  | .ok a =>
    match a.level? with
    | .error failure => Main.breakOff failure
    | .ok level => Main.load a level
