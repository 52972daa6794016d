import LittleComputer.Assignments
import LittleComputer.Processor

/-!
# Options of a run

All numbers are integers of any size: addresses and words are reduced where they are used, a watch
list is taken literally, and a step limit may be zero or negative, which allows no step.
-/

namespace LittleComputer

/-- How a program is to be run. -/
structure Options where
  /-- Where to start, unless at the origin. -/
  startAddress : Int := defaultStart
  /-- Start at the origin of the image. -/
  startAtOrigin : Bool := false
  /-- How many instructions may be completed, if that is limited. -/
  maxSteps : Option Int := none
  /-- A read past the end of the input is a fault. -/
  strictInput : Bool := false
  /-- Record every completed instruction. -/
  trace : Bool := false
  /-- The addresses whose cells are recorded with it. -/
  watch : List Int := []
  /-- Record the characters read and written with it. -/
  traceTerminal : Bool := true
  /-- What memory holds before the image is placed in it. -/
  initialMemory : Assignments := {}
  deriving DecidableEq, Repr

namespace Options

/-- The options with the watch list in ascending order. -/
def sortWatch (o : Options) : Options := { o with watch := o.watch.mergeSort }

/-- Where a program of the given origin starts. -/
def start (o : Options) (origin : Int) : Int :=
  if o.startAtOrigin then origin else o.startAddress

/-- The limit, if a run that has completed so many steps has reached it. -/
def exhausted? (o : Options) (steps : Nat) : Option Int :=
  match o.maxSteps with
  | some limit => if limit ≤ steps then some limit else none
  | none => none

end Options

end LittleComputer
