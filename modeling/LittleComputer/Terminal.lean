import LittleComputer.Fault
import LittleComputer.Word

/-!
# The terminal

A terminal gives the machine characters and takes bytes from it.  Everything that happens at the
device is kept in a transcript, in order, and what can be asked about the past is a view of it: the
characters `received`, the bytes `written`, the number of flushes.  Besides, the terminal remembers
the codes of the last read and the last write since these were reset.

A *buffer* holds its input in advance and can show its output; on a *console* the output has gone
out to the world.  What a read does past the end of the input is the terminal's `atEnd` policy.

Terminals are the abstract view of the two kinds of port, each of which works in its own way.
-/

namespace LittleComputer

/-- Where the output goes. -/
inductive Device where
  /-- Output is kept and can be asked for. -/
  | buffer
  /-- Output has gone to the world. -/
  | console
  deriving DecidableEq, Repr

/-- What a read does when no character is left. -/
inductive EndOfInput where
  /-- It gives the code `0xFFFF`. -/
  | sentinel
  /-- It is a fault. -/
  | underflow
  /-- It waits until the user interrupts it. -/
  | interrupt
  deriving DecidableEq, Repr

/-- The policy of a strict or lenient terminal. -/
def EndOfInput.ofStrict (strict : Bool) : EndOfInput := if strict then underflow else sentinel

/-- What has happened at the device. -/
inductive Event where
  /-- A character was asked for; none was left if there is no code. -/
  | read (code : Option Nat)
  /-- A byte was written. -/
  | wrote (byte : Byte)
  /-- Everything written so far was pushed out. -/
  | flushed
  deriving DecidableEq, Repr

/-- The code that stands for the end of the input. -/
def endOfInputCode : Nat := 0xFFFF

/-- A terminal with its remaining input and its past. -/
structure Terminal where
  /-- Where the output goes. -/
  device : Device
  /-- What a read does when no character is left. -/
  atEnd : EndOfInput
  /-- The codes of the characters not yet read. -/
  pending : List Nat
  /-- What has happened, oldest first. -/
  transcript : Array Event := #[]
  /-- The code that the last read gave, if it has not been reset. -/
  lastIn : Option Nat := none
  /-- The byte that was written last, if it has not been reset. -/
  lastOut : Option Byte := none
  deriving DecidableEq, Repr

namespace Terminal

/-- A buffer over the given character codes. -/
def buffer (codes : List Nat) (atEnd : EndOfInput) : Terminal :=
  { device := .buffer, atEnd, pending := codes }

/-- A console whose input is the given bytes. -/
def console (bytes : List Byte) (atEnd : EndOfInput) : Terminal :=
  { device := .console, atEnd, pending := bytes.map BitVec.toNat }

/-- Adds to the transcript. -/
def record (t : Terminal) (event : Event) : Terminal :=
  { t with transcript := t.transcript.push event }

/-- Takes the next character. -/
def read (t : Terminal) : Except Stop Nat × Terminal :=
  match t.pending with
  | code :: rest =>
    (.ok code, { t.record (.read (some code)) with pending := rest, lastIn := some code })
  | [] =>
    let t := t.record (.read none)
    match t.atEnd with
    | .sentinel => (.ok endOfInputCode, { t with lastIn := some endOfInputCode })
    | .underflow => (.error (.fault .inputUnderflow), { t with lastIn := none })
    | .interrupt => (.error .interrupted, { t with lastIn := none })

/-- Writes the low byte of a code. -/
def write (t : Terminal) (code : Int) : Terminal :=
  let byte := BitVec.ofInt 8 code
  { t.record (.wrote byte) with lastOut := some byte }

/-- Writes the low bytes of several codes. -/
def writeAll (t : Terminal) (codes : List Int) : Terminal := codes.foldl write t

/-- Pushes out everything written so far. -/
def flush (t : Terminal) : Terminal := t.record .flushed

/-- Forgets the codes of the last read and write. -/
def resetCodes (t : Terminal) : Terminal := { t with lastIn := none, lastOut := none }

/-! ## Views of the past -/

/-- The codes of the characters read so far, in order. -/
def received (t : Terminal) : List Nat :=
  t.transcript.toList.filterMap fun
    | .read code => code
    | _ => none

/-- The bytes written so far, in order. -/
def written (t : Terminal) : List Byte :=
  t.transcript.toList.filterMap fun
    | .wrote byte => some byte
    | _ => none

/-- The number of flushes so far. -/
def flushCount (t : Terminal) : Nat :=
  t.transcript.toList.countP (· == .flushed)

/-- The output that can be asked for: that of a buffer is all it has written, a console has none. -/
def output (t : Terminal) : List Byte :=
  match t.device with
  | .buffer => t.written
  | .console => []

theorem written_write (t : Terminal) (code : Int) :
    (t.write code).written = t.written ++ [BitVec.ofInt 8 code] := by
  simp [write, written, record]

theorem written_writeAll (t : Terminal) (codes : List Int) :
    (t.writeAll codes).written = t.written ++ codes.map (BitVec.ofInt 8) := by
  induction codes generalizing t with
  | nil => simp [writeAll]
  | cons code rest ih =>
    have := ih (t.write code)
    simp only [writeAll, List.foldl_cons] at this ⊢
    simp [this, written_write]

theorem written_flush (t : Terminal) : t.flush.written = t.written := by
  simp [flush, written, record]

theorem written_read (t : Terminal) : t.read.2.written = t.written := by
  unfold read
  split
  · simp [written, record]
  · dsimp only
    split <;> simp [written, record]

theorem flushCount_read (t : Terminal) : t.read.2.flushCount = t.flushCount := by
  unfold read
  split
  · simp [flushCount, record]
  · dsimp only
    split <;> simp [flushCount, record]

/-- No character is lost: what has been received and what is pending make up the whole input. -/
theorem received_append_pending_read (t : Terminal) :
    t.read.2.received ++ t.read.2.pending = t.received ++ t.pending := by
  unfold read
  split
  · next h => simp [received, record, h]
  · next h =>
    dsimp only
    split <;> simp [received, record, h]

end Terminal

end LittleComputer
