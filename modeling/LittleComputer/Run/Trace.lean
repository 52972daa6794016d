import LittleComputer.Json
import LittleComputer.Machine

/-!
# Traces

A trace has one row for each completed instruction.  A row shows what was executed and the machine
right after it.
-/

namespace LittleComputer

/-- One completed instruction. -/
structure TraceRow where
  /-- How many instructions have been completed, this one included. -/
  step : Nat
  /-- Where the instruction was. -/
  addr : Word
  /-- The word that was executed. -/
  instr : Word
  /-- The registers afterwards. -/
  registers : Vector Word 8
  /-- The program counter afterwards. -/
  pc : Word
  /-- The flags afterwards. -/
  cond : Condition
  /-- The watched cells afterwards. -/
  watched : List (Word × Word)
  /-- The codes of the last character read and the last byte written by the instruction, if they
  are recorded. -/
  codes : Option (Option Nat × Option Byte)
  deriving DecidableEq, Repr

namespace TraceRow

/-- The row for an instruction that has left the machine in the given state. -/
def after (m : Machine) (step : Nat) (addr instr : Word) (watch : List Int) (withCodes : Bool) :
    TraceRow where
  step := step
  addr := addr
  instr := instr
  registers := m.processor.registers
  pc := m.processor.pc
  cond := m.processor.cond
  watched := m.memory.watched watch
  codes := if withCodes then some (m.terminal.lastIn, m.terminal.lastOut) else none

/-- The name of the instruction. -/
def mnemonic (row : TraceRow) : String := (decode row.instr.toNat).mnemonic

/-- A row as a document. -/
def document (row : TraceRow) : Json :=
  let codes := match row.codes with
    | some (lastIn, lastOut) =>
      [("in_code", Json.ofInt? (lastIn.map fun code => (code : Int))),
       ("out_code", Json.ofInt? (lastOut.map fun byte => (byte.toNat : Int)))]
    | none => []
  .object <|
    [("step", .integer row.step),
     ("addr", .ofWord row.addr),
     ("instr", .ofWord row.instr),
     ("registers", .list (row.registers.toList.map Json.ofWord)),
     ("pc", .ofWord row.pc),
     ("cond", Json.ofText? row.cond.name?),
     ("mem", .object (row.watched.map fun cell => (toString cell.1.toNat, Json.ofWord cell.2)))]
    ++ codes
    ++ [("instr_text", .text row.mnemonic)]

end TraceRow

end LittleComputer
