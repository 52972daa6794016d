import LittleComputer.Memory

/-!
# A memory bank

Memory on its own, with the keyboard that is wired to it, if there is one.  Without a keyboard the
status register finds every character to be the end of the input.
-/

namespace LittleComputer.Memory

/-- Memory and its keyboard. -/
structure Bank where
  /-- The cells. -/
  memory : Memory
  /-- Where the keyboard register takes characters from. -/
  keyboard : Option Terminal

/-- What can be asked of a memory bank; addresses and words are integers of any size. -/
inductive Request where
  /-- Read as a program does. -/
  | read (address : Int)
  /-- Look at a cell. -/
  | peek (address : Int)
  /-- Replace a cell. -/
  | write (address word : Int)
  /-- Place words from an origin on. -/
  | load (origin : Int) (words : List Int)
  /-- Look at the cells of a watch list. -/
  | watched (addresses : List Int)
  /-- Look at everything. -/
  | snapshot
  /-- Ask for the number of cells. -/
  | size
  deriving DecidableEq, Repr

/-- What a memory bank answers. -/
inductive Answer where
  /-- Nothing to say. -/
  | done
  /-- The content of a cell. -/
  | word (word : Word)
  /-- A number of cells. -/
  | count (count : Nat)
  /-- Some cells by address. -/
  | watched (cells : List (Word × Word))
  /-- All cells that are not zero, by address. -/
  | nonzero (cells : List (Nat × Word))
  deriving DecidableEq, Repr

namespace Bank

/-- The next character of a keyboard, if there is one; else the end of the input. -/
def receive : Option Terminal → Except Stop Nat × Option Terminal
  | some terminal =>
    let (code, terminal) := terminal.read
    (code, some terminal)
  | none => (.ok endOfInputCode, none)

/-- Carries out a request. -/
def perform (b : Bank) : Request → Except Stop Answer × Bank
  | .read address =>
    match b.memory.read receive b.keyboard (Word.ofInt address) with
    | (.ok w, memory, keyboard) => (.ok (.word w), ⟨memory, keyboard⟩)
    | (.error stop, memory, keyboard) => (.error stop, ⟨memory, keyboard⟩)
  | .peek address => (.ok (.word (b.memory.peek (Word.ofInt address))), b)
  | .write address word =>
    (.ok .done, { b with memory := b.memory.poke (Word.ofInt address) (Word.ofInt word) })
  | .load origin words =>
    let (count, memory) := b.memory.load origin words
    (.ok (.count count), { b with memory })
  | .watched addresses => (.ok (.watched (b.memory.watched addresses)), b)
  | .snapshot => (.ok (.nonzero b.memory.nonzero), b)
  | .size => (.ok (.count wordCount), b)

end Bank

end LittleComputer.Memory
