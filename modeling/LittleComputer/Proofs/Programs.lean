import LittleComputer.Proofs.Images
import LittleComputer.Proofs.Steps

/-!
# Programs in memory

Where an image lies in memory, its words say what comes next: a machine that has come to one of them
carries it out and comes to another one.  Whole programs are followed in this way, word by word.

* `Machine.At` — the machine has come to a word of an image that lies in its memory.
* `Machine.At.step` — it carries out that word.
* `Machine.Computes`, `Machine.At.compute`, `Machine.At.ld` — a word that computes or loads a value,
  and what it leaves.
* `Machine.Idles`, `Machine.At.branch` — a word that goes somewhere else.
* `Machine.At.trap`, `Machine.At.halt` — a word that calls a routine, and the last one.
* `Program.image?_encode`, `Program.exists_at` — a file is the image that was written to it, and a
  run of a program starts at its first word.
-/

namespace LittleComputer

/-- The address of the word with index `i`. -/
def Image.address (image : Image) (i : Nat) : Word := Word.ofInt image.origin + BitVec.ofNat 16 i

theorem Image.address_zero (image : Image) : image.address 0 = Word.ofInt image.origin := by
  simp [address]

theorem Image.address_add_one (image : Image) (i : Nat) :
    image.address i + 1 = image.address (i + 1) := by
  simp [address, BitVec.ofNat_add, BitVec.add_assoc]

/-- Before the end of the address space the addresses count up. -/
theorem Image.toNat_address {image : Image} {i : Nat}
    (hi : (Word.ofInt image.origin).toNat + i < wordCount) :
    (image.address i).toNat = (Word.ofInt image.origin).toNat + i := by
  simp only [wordCount] at hi
  rw [address, BitVec.toNat_add, BitVec.toNat_ofNat, Nat.add_mod_mod]
  exact Nat.mod_eq_of_lt hi

/-- Below the keyboard registers all addresses are ordinary ones. -/
theorem Image.address_ne_keyboardStatus {image : Image} {i : Nat}
    (hi : (Word.ofInt image.origin).toNat + i < 0xFE00) :
    image.address i ≠ Memory.keyboardStatus := by
  intro heq
  have hvalue : (image.address i).toNat = 0xFE00 := congrArg BitVec.toNat heq
  rw [toNat_address (Nat.lt_trans hi (by decide))] at hvalue
  omega

/-- A program of less than 52736 words at the usual address does not come to them. -/
theorem Image.ordinary {image : Image} {i : Nat} (horigin : image.origin = defaultStart)
    (hi : i < 52736) : image.address i ≠ Memory.keyboardStatus := by
  apply address_ne_keyboardStatus
  rw [horigin]
  show 0x3000 + i < 0xFE00
  omega

namespace Machine

/-- `m.At image i` : the image lies in the memory of the machine, and the machine runs and has come
to the word with index `i`. -/
structure At (m : Machine) (image : Image) (i : Nat) : Prop where
  /-- The machine runs. -/
  running : m.processor.running = true
  /-- It has come to the word. -/
  pc : m.processor.pc = image.address i
  /-- The image is in memory. -/
  code : ∀ j w, image.words[j]?.map Word.ofInt = some w → m.memory.peek (image.address j) = w

/-- `m.Computes r v m'` : from `m` to `m'` an instruction has been carried out that does nothing but
compute the value `v` for the register `r`. -/
structure Computes (m : Machine) (r : Register) (v : Word) (m' : Machine) : Prop where
  /-- The value is in the register. -/
  result : m'.processor.register r = v
  /-- The other registers are as they were. -/
  others : ∀ q, q ≠ r → m'.processor.register q = m.processor.register q
  /-- The flags are those of the value. -/
  cond : m'.processor.cond = .ofWord v
  /-- Memory is as it was. -/
  memory : m'.memory = m.memory
  /-- The terminal has not been used. -/
  terminal : m'.terminal = m.terminal.resetCodes

/-- `m.Idles m'` : from `m` to `m'` an instruction has been carried out that does nothing but go
somewhere. -/
structure Idles (m m' : Machine) : Prop where
  /-- The registers are as they were, -/
  registers : m'.processor.registers = m.processor.registers
  /-- and the flags, -/
  cond : m'.processor.cond = m.processor.cond
  /-- and memory. -/
  memory : m'.memory = m.memory
  /-- The terminal has not been used. -/
  terminal : m'.terminal = m.terminal.resetCodes

namespace At

variable {instructions : InstructionSet} {m m' : Machine} {image : Image} {i : Nat} {w : Word}
  {op : Opcode}

/-! ## Single words -/

/-- The word that comes next is one of the image. -/
theorem current (h : m.At image i) (hw : image.words[i]?.map Word.ofInt = some w) :
    m.current = w := by
  rw [Machine.current, h.pc]
  exact h.code i w hw

/-- Neither registers nor the terminal make a difference to where a machine is. -/
theorem of_eq (h : m.At image i) (hpc : m'.processor.pc = m.processor.pc)
    (hstatus : m'.processor.status = m.processor.status) (hmemory : m'.memory = m.memory) :
    m'.At image i where
  running := by
    rw [Processor.running, hstatus]
    exact h.running
  pc := hpc.trans h.pc
  code := by
    rw [hmemory]
    exact h.code

/-- The machine once the word has been fetched. -/
theorem advance (h : m.At image i) (w : Word) : (m.advance w).resetCodes.At image (i + 1) where
  running := h.running
  pc := by
    rw [← image.address_add_one, ← h.pc]
    rfl
  code := h.code

/-- The machine after a jump to another word. -/
theorem jump (h : m.At image i) {j : Nat} {target : Int}
    (htarget : Word.ofInt target = image.address j) : (m.jumpTo (some target)).At image j where
  running := h.running
  pc := htarget
  code := h.code

/-- **A machine at a word of an image carries it out.** -/
theorem step (h : m.At image i) (hordinary : image.address i ≠ Memory.keyboardStatus)
    (hw : image.words[i]?.map Word.ofInt = some w) (hop : w.opcode = op)
    (hset : instructions op = true) {target : Option Int}
    (hperform : (decode w.toNat).perform op (m.advance w).resetCodes = .ok target m') :
    m.Steps instructions 1 (m'.jumpTo target) := by
  rw [← h.pc] at hordinary
  exact .one h.running (Exec.cycle_of_perform hordinary (h.current hw) hop hset hperform)

/-! ## Computing -/

/-- **A word that computes a value** leaves it, and the machine comes to the next word. -/
theorem compute (h : m.At image i) (hordinary : image.address i ≠ Memory.keyboardStatus)
    (hw : image.words[i]?.map Word.ofInt = some w) (hop : w.opcode = op)
    (hset : instructions op = true) {r : Register} {v : Word}
    (hperform : (decode w.toNat).perform op (m.advance w).resetCodes =
      .ok none ((m.advance w).resetCodes.setResult r v)) :
    ∃ m', m.Steps instructions 1 m' ∧ m'.At image (i + 1) ∧ m.Computes r v m' := by
  have hresult : ((m.advance w).resetCodes.processor.setRegister r v).register r = v := by
    simp [Processor.register_setRegister]
  refine ⟨_, h.step hordinary hw hop hset hperform, (h.advance w).of_eq rfl rfl rfl, ?_⟩
  constructor
  case result => exact hresult
  case others =>
    intro q hq
    exact (Processor.register_setRegister _ r q v).trans (if_neg (Ne.symm hq))
  case cond => exact congrArg Condition.ofWord hresult
  case memory => rfl
  case terminal => rfl

/-- **A word that loads a word of the image.** -/
theorem ld (h : m.At image i) (hordinary : image.address i ≠ Memory.keyboardStatus)
    (hw : image.words[i]?.map Word.ofInt = some w) (hop : w.opcode = .ld)
    (hset : instructions .ld = true) {j : Nat} {v : Word}
    (haddress : Word.ofInt ((image.address (i + 1)).toNat + (decode w.toNat).pcOffset9) =
      image.address j)
    (hplain : image.address j ≠ Memory.keyboardStatus)
    (hv : image.words[j]?.map Word.ofInt = some v) :
    ∃ m', m.Steps instructions 1 m' ∧ m'.At image (i + 1) ∧
      m.Computes (decode w.toNat).dr v m' := by
  have hnext := h.advance w
  apply h.compute hordinary hw hop hset
  rw [Instruction.perform_ld, hnext.pc, Exec.bind_apply, Exec.load_of_ne _ (by rwa [haddress]),
    haddress, hnext.code j v hv]
  rfl

/-! ## Going somewhere -/

/-- **A branch** is taken if one of the flags that it asks for is set. -/
theorem branch (h : m.At image i) (hordinary : image.address i ≠ Memory.keyboardStatus)
    (hw : image.words[i]?.map Word.ofInt = some w) (hop : w.opcode = .br)
    (hset : instructions .br = true) {j : Nat}
    (htarget : Word.ofInt ((image.address (i + 1)).toNat + (decode w.toNat).pcOffset9) =
      image.address j) :
    ∃ m', m.Steps instructions 1 m' ∧ m.Idles m' ∧
      m'.At image (if (decode w.toNat).nzp &&& m.processor.cond = 0 then i + 1 else j) := by
  have hnext := h.advance w
  have hperform := Instruction.perform_br (decode w.toNat) (m.advance w).resetCodes
  have hcond : (m.advance w).resetCodes.processor.cond = m.processor.cond := rfl
  rw [hnext.pc, hcond] at hperform
  have hstep := h.step hordinary hw hop hset hperform
  by_cases hpassed : (decode w.toNat).nzp &&& m.processor.cond = 0
  · rw [if_pos hpassed] at hstep
    rw [if_pos hpassed]
    exact ⟨_, hstep, ⟨rfl, rfl, rfl, rfl⟩, hnext⟩
  · rw [if_neg hpassed] at hstep
    rw [if_neg hpassed]
    exact ⟨_, hstep, ⟨rfl, rfl, rfl, rfl⟩, hnext.jump htarget⟩

/-- **A trap** is carried out as its routine says. -/
theorem trap (h : m.At image i) (hordinary : image.address i ≠ Memory.keyboardStatus)
    (hw : image.words[i]?.map Word.ofInt = some w) (hop : w.opcode = .trap)
    (hset : instructions .trap = true) {routine : Trap}
    (hroutine : Trap.ofVector? (decode w.toNat).trapVector = some routine)
    (hrun : routine.run (m.advance w).resetCodes = .ok () m') : m.Steps instructions 1 m' := by
  have hperform := Instruction.perform_trap _ (m.advance w).resetCodes hroutine
  rw [Exec.bind_apply, hrun] at hperform
  exact h.step hordinary hw hop hset hperform

/-- **Halting** stops the machine and pushes out the output. -/
theorem halt (h : m.At image i) (hordinary : image.address i ≠ Memory.keyboardStatus)
    (hw : image.words[i]?.map Word.ofInt = some (0xF025 : Word))
    (hset : instructions .trap = true) :
    ∃ m', m.Steps instructions 1 m' ∧ m'.processor.status = .halted ∧
      m'.processor.registers = m.processor.registers ∧ m'.processor.cond = m.processor.cond ∧
      m'.memory = m.memory ∧ m'.terminal = m.terminal.resetCodes.flush := by
  have hrun := Trap.run_halt (m.advance 0xF025).resetCodes
  exact ⟨_, h.trap hordinary hw (by decide) hset rfl hrun, rfl, rfl, rfl, rfl, rfl⟩

end At

end Machine

/-! ## The beginning -/

/-- What was written to a file is the image that was written, if it fits into the address space. -/
theorem Program.image?_encode {origin : Word} {words : List Word}
    (hfits : origin.toNat + words.length ≤ wordCount) :
    (Program.bytes (Image.encode origin words)).image? =
      some ⟨origin.toNat, words.map fun w => (w.toNat : Int)⟩ := by
  have hwhole : words.take (wordCount - origin.toNat) = words :=
    List.take_of_length_le (by omega)
  simp only [image?, Image.parse_encode, hwhole]

/-- **A run of a program starts at its first word**, if it starts at the origin and its image fits
into the address space. -/
theorem Program.exists_at {settings : Settings} {program : Program} {image : Image}
    (himage : program.image? = some image)
    (hstart : Word.ofInt (settings.options.start image.origin) = Word.ofInt image.origin)
    (hfits : (Word.ofInt image.origin).toNat + image.words.length ≤ wordCount)
    (terminal : Terminal) (journal : Journal) :
    ∃ s, program.session? settings.sorted.options terminal journal = some s ∧
      s.machine.At image 0 ∧ s.machine.terminal = terminal := by
  obtain ⟨journal', hs⟩ :=
    Program.session?_of_image? himage settings.sorted.options terminal journal
  refine ⟨_, hs, ?_, rfl⟩
  constructor
  case running => rfl
  case pc => exact hstart.trans image.address_zero.symm
  case code =>
    intro j w hw
    obtain ⟨word, hword, rfl⟩ := Option.map_eq_some_iff.1 hw
    have hj := (List.getElem?_eq_some_iff.1 hword).1
    exact Memory.peek_load_of_getElem? _ image.origin hword (by omega)

end LittleComputer
