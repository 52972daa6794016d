import LittleComputer.Machine

/-!
# Trap routines

Six routines stand behind the trap vectors `0x20` to `0x25`: reading and writing single characters,
writing strings, and halting.  None of them sets the condition flags.
-/

namespace LittleComputer

/-- The trap routines, in the order of their vectors. -/
inductive Trap where
  /-- Read a character into `R0`, without echo. -/
  | getc
  /-- Write the low byte of `R0`. -/
  | out
  /-- Write the string at `R0`, one character per word. -/
  | puts
  /-- Read a character into `R0` and echo it. -/
  | readEcho
  /-- Write the string at `R0`, two characters per word. -/
  | putsp
  /-- Stop the machine. -/
  | halt
  deriving DecidableEq, Repr

namespace Trap

/-- The routine behind a vector. -/
def ofVector? : Nat → Option Trap
  | 0x20 => some getc
  | 0x21 => some out
  | 0x22 => some puts
  | 0x23 => some readEcho
  | 0x24 => some putsp
  | 0x25 => some halt
  | _ => none

/-- The characters packed into a word: the low byte, then the high byte unless it is zero. -/
def unpack (w : Word) : List Int :=
  let low := w.toNat % 256
  let high := w.toNat / 256
  if high = 0 then [low] else [low, high]

open Exec in
/-- Runs a routine. -/
def run : Trap → Exec Unit
  | getc => do
    let code ← readChar
    setRegister .r0 (BitVec.ofNat 16 code)
    flush
  | out => do
    write [((← register .r0).toNat : Int)]
  | puts => do
    let words ← string (← register .r0)
    write (words.map fun w => (w.toNat : Int))
    flush
  | readEcho => do
    let code ← readChar
    write [(code : Int)]
    setRegister .r0 (BitVec.ofNat 16 code)
  | putsp => do
    let words ← string (← register .r0)
    write (words.flatMap unpack)
    flush
  | halt => do
    flush
    onProcessor fun p => { p with status := .halted }

end Trap

end LittleComputer
