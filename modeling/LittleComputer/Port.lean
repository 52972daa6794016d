import LittleComputer.Terminal

/-!
# Ports

A port is where a program finds its characters and leaves its own.  There are two kinds, each with a
state of its own.  A `Buffer` is a text with a place in it and the characters written so far.  A
`Console` is a pair of byte streams: what is read from the one is gone, and what is written to the
other has gone out, so that there is nothing to show.

The kinds differ in four methods (`Provider`): how to find the next character, how to put one out,
how to push the output out and what output to show.  Everything else is common to all ports and made
from these (`Port.readChar`, `Port.writeChar`): the end of the input, the low byte of a code, and
the codes of the last read and the last write since they were forgotten.
-/

namespace LittleComputer

/-- What a kind of port does in its own way, on a state of its own. -/
class Provider (σ : Type) where
  /-- Finds the code of the next character; there is none at the end of the input. -/
  next : σ → Except Break (Option Nat) × σ
  /-- Puts out the character with a code. -/
  emit : σ → Int → Except Break Unit × σ
  /-- Pushes out what has been put out. -/
  flush : σ → σ
  /-- The codes of the output that can be shown. -/
  output : σ → List Nat

/-- A port, of the kind whose states are `σ`. -/
structure Port (σ : Type) where
  /-- The state of its kind. -/
  own : σ
  /-- A read past the end of the input is a fault. -/
  strict : Bool
  /-- The code that the last read gave, if it has not been reset. -/
  lastIn : Option Nat := none
  /-- The code that was written last, if it has not been reset. -/
  lastOut : Option Int := none
  deriving DecidableEq, Repr

namespace Port

variable {σ : Type} [Provider σ]

/-- Reads the next character.  Until its code is there, the last one is forgotten. -/
def readChar : Port σ → Except Break Nat × Port σ
  | ⟨own, strict, _, lastOut⟩ =>
    match Provider.next own with
    | (.error e, own) => (.error e, ⟨own, strict, none, lastOut⟩)
    | (.ok (some code), own) => (.ok code, ⟨own, strict, some code, lastOut⟩)
    | (.ok none, own) =>
      if strict then (.error (.stop (.fault .inputUnderflow)), ⟨own, strict, none, lastOut⟩)
      else (.ok endOfInputCode, ⟨own, strict, some endOfInputCode, lastOut⟩)

/-- Writes the low byte of a code. -/
def writeChar : Port σ → Int → Except Break Unit × Port σ
  | ⟨own, strict, lastIn, _⟩, code =>
    match Provider.emit own (code % 256) with
    | (result, own) => (result, ⟨own, strict, lastIn, some (code % 256)⟩)

/-- Pushes out what has been written. -/
def flush : Port σ → Port σ
  | ⟨own, strict, lastIn, lastOut⟩ => ⟨Provider.flush own, strict, lastIn, lastOut⟩

/-- The codes of the output that can be shown. -/
def output (p : Port σ) : List Nat := Provider.output p.own

/-- Forgets the codes of the last read and write. -/
def resetCodes (p : Port σ) : Port σ := { p with lastIn := none, lastOut := none }

end Port

/-! ## Buffers -/

/-- A text to be read and a text that has been written. -/
structure Buffer where
  /-- The codes of the characters to be read. -/
  input : Array Nat
  /-- How many of them have been read. -/
  position : Nat := 0
  /-- The codes of the characters that have been written. -/
  emitted : Array Nat := #[]
  deriving DecidableEq, Repr

namespace Buffer

/-- Finds the next character of the text. -/
def next (b : Buffer) : Except Break (Option Nat) × Buffer :=
  if h : b.position < b.input.size then
    (.ok (some b.input[b.position]), { b with position := b.position + 1 })
  else (.ok none, b)

/-- Adds a character to what has been written. -/
def emit : Buffer → Int → Except Break Unit × Buffer
  | ⟨input, position, emitted⟩, code =>
    if 0 ≤ code ∧ code < 0x110000 then (.ok (), ⟨input, position, emitted.push code.toNat⟩)
    else (.error (.value .character), ⟨input, position, emitted⟩)

instance : Provider Buffer where
  next := next
  emit := emit
  flush b := b
  output b := b.emitted.toList

end Buffer

/-- A port on a buffer over a text with the given character codes. -/
def Port.buffer (codes : List Nat) (strict : Bool) : Port Buffer :=
  { own := { input := codes.toArray }, strict }

/-! ## Consoles -/

/-- What has become of the output of a console. -/
inductive Sent where
  /-- A byte was written. -/
  | byte (byte : Byte)
  /-- What had been written was pushed out. -/
  | flushed
  deriving DecidableEq, Repr

/-- The standard streams. -/
structure Console where
  /-- The bytes that are still to come. -/
  stdin : List Byte
  /-- A read past them is interrupted by the user, and not the end of the input. -/
  interrupts : Bool := false
  /-- What has been sent out, oldest first. -/
  stdout : Array Sent := #[]
  deriving DecidableEq, Repr

namespace Console

/-- Takes a byte from the input. -/
def next (c : Console) : Except Break (Option Nat) × Console :=
  match c.stdin with
  | byte :: rest => (.ok (some byte.toNat), { c with stdin := rest })
  | [] => if c.interrupts then (.error (.stop .interrupted), c) else (.ok none, c)

/-- Sends out a byte. -/
def emit : Console → Int → Except Break Unit × Console
  | ⟨stdin, interrupts, stdout⟩, code =>
    if 0 ≤ code ∧ code < 256 then
      (.ok (), ⟨stdin, interrupts, stdout.push (.byte (BitVec.ofInt 8 code))⟩)
    else (.error (.value .byte), ⟨stdin, interrupts, stdout⟩)

/-- Has pushed out what was written. -/
def flush : Console → Console
  | ⟨stdin, interrupts, stdout⟩ => ⟨stdin, interrupts, stdout.push .flushed⟩

instance : Provider Console where
  next := next
  emit := emit
  flush := flush
  output _ := []

/-- The bytes that have been sent out. -/
def written (c : Console) : List Byte :=
  c.stdout.toList.filterMap fun
    | .byte byte => some byte
    | .flushed => none

/-- How often the output has been pushed out. -/
def flushCount (c : Console) : Nat := c.stdout.toList.countP (· == .flushed)

end Console

/-- A port on the standard streams, with the bytes that come from the one and then an interrupt, if
there is to be one. -/
def Port.console (bytes : List Byte) (strict : Bool) (interrupts : Bool := false) : Port Console :=
  { own := { stdin := bytes, interrupts }, strict }

/-! ## Operations -/

namespace Port

/-- What can be asked of a port. -/
inductive Operation where
  /-- Read the next character. -/
  | read
  /-- Write the low byte of a code. -/
  | write (code : Int)
  /-- Push out what has been written. -/
  | flush
  /-- Show the output. -/
  | output
  /-- Forget the last codes. -/
  | resetCodes
  deriving DecidableEq, Repr

/-- What a port answers. -/
inductive Reply where
  /-- Nothing to say. -/
  | done
  /-- The code of a character. -/
  | code (code : Nat)
  /-- The codes of the output. -/
  | text (codes : List Nat)
  deriving DecidableEq, Repr

/-- Carries out an operation. -/
def perform {σ : Type} [Provider σ] (p : Port σ) : Operation → Except Break Reply × Port σ
  | .read =>
    match p.readChar with
    | (result, p) => (result.map .code, p)
  | .write code =>
    match p.writeChar code with
    | (result, p) => (result.map fun _ => .done, p)
  | .flush => (.ok .done, p.flush)
  | .output => (.ok (.text p.output), p)
  | .resetCodes => (.ok .done, p.resetCodes)

end Port

end LittleComputer
