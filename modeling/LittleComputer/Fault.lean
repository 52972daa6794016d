import LittleComputer.Text.Hex
import LittleComputer.Word

/-!
# Faults

A machine stops early for one of a few causes, each a constructor of `Fault`.  A cause has a kind,
which is what exit codes and structured reports go by, and a message.  The kinds form a small tree:
every kind but `general` specialises another one, and `FaultKind.lineage` is the path to the root.

Execution can also end without a fault: the user interrupts it at a read, or it never ends at all.
`Stop` lists all three.  Where numbers are plain integers, an index may miss and a number may be
none of what is asked for; `Break` adds these errors, which are no faults of a program.
-/

namespace LittleComputer

/-- The kinds of fault, from the general to the particular. -/
inductive FaultKind where
  /-- Any fault at all. -/
  | general
  /-- An image that cannot be loaded. -/
  | load
  /-- Any fault of a running program. -/
  | runtime
  /-- An instruction that the machine knows and refuses. -/
  | unusedOpcode
  /-- An opcode outside the instruction set. -/
  | badOpcode
  /-- A trap vector without a routine. -/
  | unknownTrapVector
  /-- More instructions than the run was allowed. -/
  | stepLimitExceeded
  /-- A read past the end of the input where that is an error. -/
  | inputUnderflow
  deriving DecidableEq, Repr

namespace FaultKind

/-- The name under which a kind is reported. -/
def name : FaultKind → String
  | general => "LC3Error"
  | load => "ImageLoadError"
  | runtime => "LC3RuntimeError"
  | unusedOpcode => "UnusedOpcode"
  | badOpcode => "BadOpcode"
  | unknownTrapVector => "UnknownTrapVector"
  | stepLimitExceeded => "StepLimitExceeded"
  | inputUnderflow => "InputUnderflow"

/-- All kinds. -/
def all : List FaultKind :=
  [general, load, runtime, unusedOpcode, badOpcode, unknownTrapVector, stepLimitExceeded,
    inputUnderflow]

/-- The kind with a given name. -/
def ofName? (name : String) : Option FaultKind := all.find? (·.name == name)

/-- A kind followed by the ever more general kinds that it specialises. -/
def lineage : FaultKind → List FaultKind
  | general => [general]
  | load => [load, general]
  | runtime => [runtime, general]
  | kind => [kind, runtime, general]

end FaultKind

/-- What can go wrong while a program runs. -/
inductive Fault where
  /-- The machine refuses the instruction with this mnemonic. -/
  | unusedOpcode (mnemonic : String)
  /-- The instruction set has no such opcode. -/
  | badOpcode (opcode : Int)
  /-- No trap routine has this vector. -/
  | unknownTrapVector (vector : Nat)
  /-- The run has used up its steps. -/
  | stepLimitExceeded (limit : Int)
  /-- A character was asked for and none is left. -/
  | inputUnderflow
  deriving DecidableEq, Repr

namespace Fault

/-- The kind under which a fault is reported. -/
def kind : Fault → FaultKind
  | unusedOpcode _ => .unusedOpcode
  | badOpcode _ => .badOpcode
  | unknownTrapVector _ => .unknownTrapVector
  | stepLimitExceeded _ => .stepLimitExceeded
  | inputUnderflow => .inputUnderflow

/-- The message of a fault. -/
def message : Fault → String
  | unusedOpcode mnemonic => "Unused operand code: " ++ mnemonic
  | badOpcode opcode => "Bad opcode: 0x" ++ Text.signedHex opcode
  | unknownTrapVector vector => "Unknown trap vector: 0x" ++ Text.hex 2 vector
  | stepLimitExceeded limit => "Step limit exceeded: " ++ toString limit
  | inputUnderflow => "Input buffer is empty"

end Fault

/-- A fault as it is reported: its kind and message with the number of completed steps, an address
and the instruction word in question, where there is one. -/
structure Report where
  kind : FaultKind
  message : String
  step : Int := 0
  addr : Int := 0
  instr : Option Int := none
  deriving DecidableEq, Repr

/-- Why execution stopped short of its result. -/
inductive Stop where
  /-- The program went wrong. -/
  | fault (cause : Fault)
  /-- The user interrupted a read. -/
  | interrupted
  /-- The instruction never completes. -/
  | endless
  deriving DecidableEq, Repr

/-- An index that names no entry of a row. -/
inductive IndexError where
  /-- The entry was to be read. -/
  | read
  /-- The entry was to be written. -/
  | write
  deriving DecidableEq, Repr

/-- The message for an index that names no entry. -/
def IndexError.message : IndexError → String
  | read => "list index out of range"
  | write => "list assignment index out of range"

/-- A number that is none of what is asked for. -/
inductive ValueError where
  /-- It is the width of no field. -/
  | width (e : FieldError)
  /-- It is no byte. -/
  | byte
  /-- It is no code of a character. -/
  | character
  deriving DecidableEq, Repr

/-- The message for a number that is none of what is asked for. -/
def ValueError.message : ValueError → String
  | width e => e.message
  | byte => "bytes must be in range(0, 256)"
  | character => "chr() arg not in range(0x110000)"

/-- Why an action on plain integers broke off. -/
inductive Break where
  /-- Execution stopped short. -/
  | stop (cause : Stop)
  /-- An index was out of range. -/
  | index (e : IndexError)
  /-- A number was out of range. -/
  | value (e : ValueError)
  deriving DecidableEq, Repr

/-- The message that comes with a break; a user who interrupts leaves none. -/
def Break.message : Break → String
  | stop (.fault cause) => cause.message
  | stop _ => ""
  | index e => e.message
  | value e => e.message

end LittleComputer
