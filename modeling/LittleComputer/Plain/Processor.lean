import LittleComputer.Fault
import LittleComputer.Processor

/-!
# The processor on plain integers

The registers and cells of the plain machine are rows of integers, which may hold integers of any
size.  Nothing but the way they are written keeps them in range: whoever writes takes the low
sixteen bits (`wrap`).  Entries are named by integers as well: they count from the front, or from
the back if they are negative, and an index outside the row is refused.
-/

namespace LittleComputer.Plain

/-! ## Integers -/

/-- The low sixteen bits of an integer. -/
def wrap (value : Int) : Int := value % (wordCount : Nat)

/-- The bits that are set in two integers, in two's complement with infinitely many sign bits. -/
def common : Int → Int → Int
  | .ofNat m, .ofNat n => .ofNat (m &&& n)
  | .ofNat m, .negSucc n => .ofNat (m - (m &&& n))
  | .negSucc m, .ofNat n => .ofNat (n - (n &&& m))
  | .negSucc m, .negSucc n => .negSucc (m ||| n)

example : common (-1) 0xF00F = 0xF00F := by decide
example : common 6 (-4) = 4 := by decide
example : common (-6) (-4) = -8 := by decide

/-! ## Rows -/

/-- A row of integers. -/
abbrev Row := Array Int

/-- The place of the entry with an index in a row of the given size. -/
def place? (size : Nat) (index : Int) : Option (Fin size) :=
  if h : 0 ≤ index ∧ index < size then some ⟨index.toNat, by omega⟩
  else if h : index < 0 ∧ 0 ≤ index + size then some ⟨(index + size).toNat, by omega⟩
  else none

example : (place? 8 7).map Fin.val = some 7 := by decide
example : (place? 8 (-1)).map Fin.val = some 7 := by decide
example : place? 8 (-9) = none := by decide

/-- The entry with an index. -/
def Row.item (row : Row) (index : Int) : Except IndexError Int :=
  match place? row.size index with
  | some i => .ok row[i]
  | none => .error .read

/-- Replaces the entry with an index. -/
def Row.put (row : Row) (index value : Int) : Except IndexError Unit × Row :=
  match place? row.size index with
  | some i => (.ok (), row.set i value)
  | none => (.error .write, row)

/-! ## The processor -/

/-- The state of the processor. -/
structure Processor where
  /-- The general registers, `R0` first. -/
  registers : Row
  /-- The program counter. -/
  pc : Int
  /-- The condition flags. -/
  cond : Condition
  /-- The instruction in hand, if one has been fetched. -/
  ir : Option Int
  /-- Whether the machine runs. -/
  status : Status
  deriving DecidableEq, Repr

namespace Processor

/-- The processor after a reset: all registers zero, the zero flag set, running from `start`. -/
def reset (start : Int) : Processor where
  registers := .replicate 8 0
  pc := wrap start
  cond := .zero
  ir := none
  status := .running

/-- Moves the program counter. -/
def jump (p : Processor) (target : Int) : Processor := { p with pc := wrap target }

/-- Reads a register. -/
def get (p : Processor) (index : Int) : Except IndexError Int := p.registers.item index

/-- Writes a register. -/
def set : Processor → (index value : Int) → Except IndexError Unit × Processor
  | ⟨registers, pc, cond, ir, status⟩, index, value =>
    let (result, registers) := registers.put index (wrap value)
    (result, ⟨registers, pc, cond, ir, status⟩)

/-- The flag for a value that a register holds. -/
def flagFor (value : Int) : Condition :=
  if value / 32768 ≠ 0 then .negative else if value = 0 then .zero else .positive

/-- Sets the flags from a register. -/
def updateFlags (p : Processor) (index : Int) : Except IndexError Unit × Processor :=
  match p.get index with
  | .ok value => (.ok (), { p with cond := flagFor value })
  | .error e => (.error e, p)

/-- Whether the machine runs. -/
def running (p : Processor) : Bool := p.status == .running

end Processor

end LittleComputer.Plain
