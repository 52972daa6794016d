import LittleComputer.Plain.Processor

/-!
# Memory on plain integers

A row of 65536 cells.  Addresses and words are integers of any size, and every access takes the low
sixteen bits of its address, every write those of the word.  Only the watch list takes addresses
literally, and a load counts its addresses up and stops at the end of the row.
-/

namespace LittleComputer.Plain

/-- The contents of the whole address space. -/
structure Memory where
  /-- The cells, from address 0 on. -/
  cells : Row

namespace Memory

/-- Memory full of zeros. -/
def empty : Memory := ⟨.replicate wordCount 0⟩

/-- Replaces the content of the cell at an address. -/
def poke : Memory → (address word : Int) → Except IndexError Unit × Memory
  | ⟨cells⟩, address, word =>
    let (result, cells) := cells.put (wrap address) (wrap word)
    (result, ⟨cells⟩)

/-- Writes words to consecutive cells up to the end of memory, after `count` words have been written
already, and says how many there are then. -/
def store : Memory → (address : Int) → (count : Nat) → List Int → Except IndexError Nat × Memory
  | m, _, count, [] => (.ok count, m)
  | ⟨cells⟩, address, count, word :: rest =>
    if (wordCount : Nat) ≤ address then (.ok count, ⟨cells⟩)
    else
      match cells.put address (wrap word) with
      | (.ok (), cells) => store ⟨cells⟩ (address + 1) (count + 1) rest
      | (.error e, cells) => (.error e, ⟨cells⟩)

/-- Places words from the origin on, and says how many. -/
def load (m : Memory) (origin : Int) (words : List Int) : Except IndexError Nat × Memory :=
  m.store (wrap origin) 0 words

/-- Writes values to addresses in turn. -/
def assign : Memory → List (Int × Int) → Except IndexError Unit × Memory
  | m, [] => (.ok (), m)
  | m, (address, value) :: rest =>
    match m.poke address value with
    | (.ok (), m) => assign m rest
    | failed => failed

/-- Looks at the cells with the given indexes, one after the other. -/
def view (m : Memory) : List Int → Except IndexError (List (Int × Int))
  | [] => .ok []
  | address :: rest => do
    let word ← m.cells.item address
    return (address, word) :: (← m.view rest)

/-- The watched cells, each once.  Integers outside the address space are ignored. -/
def watched (m : Memory) (addresses : List Int) : Except IndexError (List (Int × Int)) :=
  m.view (addresses.filter fun (a : Int) => 0 ≤ a ∧ a < wordCount).eraseDups

end Memory

end LittleComputer.Plain
