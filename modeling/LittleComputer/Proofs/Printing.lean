import LittleComputer.Proofs.Programs
import LittleComputer.Proofs.Strings

/-!
# Printing a string

The shortest program that says something: it takes the address of its string, prints what is there
and halts.  The string may be as long as the rest of the address space allows, so it may lie over
the keyboard registers.  The printing looks at the cells themselves there, and takes no character
from the keyboard.

* `Memory.stringAt_of_cells`, `Memory.string?_eq_some_iff` — words that lie in memory before a zero
  are the string that is found.
* `Machine.At.take_address`, `Machine.At.print_string` — the two instructions before the last.
* `run_printing` — **the program prints its string**, in three instructions.
-/

namespace LittleComputer

/-- The program with its string. -/
def Image.printing (words : List Word) : Image :=
  ⟨0x3000, 0xE002 :: 0xF022 :: 0xF025 :: (words ++ [0]).map fun w : Word => (w.toNat : Int)⟩

/-- The same as a file. -/
def Program.printing (words : List Word) : Program :=
  .bytes (Image.encode 0x3000 (0xE002 :: 0xF022 :: 0xF025 :: (words ++ [0])))

theorem Program.image?_printing {words : List Word} (hlength : words.length ≤ 0xCFFC) :
    (Program.printing words).image? = some (.printing words) := by
  refine Program.image?_encode ?_
  show 0x3000 + ((words ++ [0]).length + 3) ≤ 0x10000
  rw [List.length_append, List.length_singleton]
  omega

/-! ## The string in memory -/

namespace Memory

/-- Words of which none is zero, with a zero after them, are a string. -/
theorem stringAt_of_cells {m : Memory} {a : Word} {words : List Word}
    (hcells : ∀ i w, (words ++ [0])[i]? = some w → m.peek (a + BitVec.ofNat 16 i) = w)
    (hwords : ∀ w ∈ words, w ≠ 0) : m.StringAt a words := by
  induction words generalizing a with
  | nil =>
      have hend := hcells 0 0 rfl
      rw [BitVec.add_zero] at hend
      exact .nil hend
  | cons w rest ih =>
      have hfirst := hcells 0 w rfl
      rw [BitVec.add_zero] at hfirst
      have hrest : m.StringAt (a + 1) rest := by
        refine ih (fun i v hv => ?_) fun v hv => hwords v (List.mem_cons_of_mem _ hv)
        rw [BitVec.add_assoc, ← hcells (i + 1) v hv, Nat.add_comm, BitVec.ofNat_add]
        rfl
      have hnonzero : m.peek a ≠ 0 := by
        rw [hfirst]
        exact hwords w List.mem_cons_self
      have hstring := StringAt.cons hnonzero hrest
      rwa [hfirst] at hstring

/-- Where there is a string, some cell is zero. -/
theorem StringAt.exists_zero {m : Memory} {a : Word} {words : List Word}
    (h : m.StringAt a words) : ∃ b, m.peek b = 0 := by
  induction h with
  | @nil a zero => exact ⟨a, zero⟩
  | cons _ _ ih => exact ih

/-- **The string that is found is the string that is there.** -/
theorem string?_eq_some_iff {m : Memory} {a : Word} {words : List Word} :
    m.string? a = some words ↔ m.StringAt a words := by
  constructor
  · exact stringAt_of_string?
  · intro h
    obtain ⟨n, -, hfound, -, -⟩ := exists_firstZero h.exists_zero a
    rw [hfound, h.unique (stringAt_of_string? hfound)]

end Memory

/-- Printing a string writes its low bytes and pushes them out. -/
theorem Trap.run_puts_of_stringAt {m : Machine} {words : List Word}
    (h : m.memory.StringAt (m.processor.register .r0) words) :
    puts.run m =
      .ok () (m.withTerminal (m.terminal.print (words.map Word.lowByte)).flush) := by
  rw [run_puts_eq, Exec.writeString_apply, Memory.string?_eq_some_iff.2 h, List.map_eq_flatMap]

namespace Machine.At

variable {instructions : InstructionSet} {m : Machine} {words : List Word} {i : Nat}

/-- The words of the string follow the instructions. -/
theorem stringAt (h : m.At (.printing words) i) (hwords : ∀ w ∈ words, w ≠ 0) :
    m.memory.StringAt 0x3003 words := by
  refine Memory.stringAt_of_cells (fun j w hw => ?_) hwords
  have hword : (Image.printing words).words[j + 3]?.map Word.ofInt = some w := by
    show ((words ++ [0]).map fun v : Word => (v.toNat : Int))[j]?.map Word.ofInt = some w
    rw [List.getElem?_map, hw]
    exact congrArg some (Word.ofInt_toNat w)
  have haddress : (Image.printing words).address (j + 3) = 0x3003 + BitVec.ofNat 16 j := by
    rw [Image.address, Nat.add_comm, BitVec.ofNat_add, ← BitVec.add_assoc]
    rfl
  rw [← haddress]
  exact h.code (j + 3) w hword

/-! ## The instructions -/

/-- The address of the string is taken. -/
theorem take_address (h : m.At (.printing words) 0) (hset : instructions .lea = true) :
    ∃ m', m.Steps instructions 1 m' ∧ m'.At (.printing words) 1 ∧ m.Computes .r0 0x3003 m' := by
  have hperform := Instruction.perform_lea (decode (0xE002 : Word).toNat)
    (m.advance 0xE002).resetCodes
  rw [(h.advance 0xE002).pc] at hperform
  exact h.compute (Image.ordinary rfl (by decide)) rfl (by decide) hset hperform

/-- The string is printed and pushed out. -/
theorem print_string (h : m.At (.printing words) 1) (hwords : ∀ w ∈ words, w ≠ 0)
    (haddress : m.processor.register .r0 = 0x3003) (hset : instructions .trap = true) :
    ∃ m', m.Steps instructions 1 m' ∧ m'.At (.printing words) 2 ∧ m'.memory = m.memory ∧
      m.terminal.resetCodes.Printed (words.map Word.lowByte) m'.terminal := by
  have hnext := h.advance 0xF022
  have hstring : (m.advance 0xF022).resetCodes.memory.StringAt
      ((m.advance 0xF022).resetCodes.processor.register .r0) words := by
    have hregister : (m.advance 0xF022).resetCodes.processor.register .r0 = 0x3003 := haddress
    rw [hregister]
    exact hnext.stringAt hwords
  refine ⟨_, h.trap (Image.ordinary rfl (by decide)) rfl (by decide) hset rfl
    (Trap.run_puts_of_stringAt hstring), hnext.of_eq rfl rfl rfl, rfl, ?_⟩
  exact (Terminal.printed_print _ _).flush

end Machine.At

/-! ## Whole runs -/

/-- **The program prints its string**: the low bytes of all its words, in order.  It takes no
character and leaves memory as it was loaded, however long the string is. -/
theorem run_printing {settings : Settings} {words : List Word} (hwords : ∀ w ∈ words, w ≠ 0)
    (hlength : words.length ≤ 0xCFFC)
    (hstart : Word.ofInt (settings.options.start 0x3000) = 0x3000)
    (hallows : settings.options.Allows 3) (hset : ∀ op, settings.instructions op = true)
    (codes : List Nat) (journal : Journal) {fuel : Nat} (hfuel : 3 < fuel) :
    ∃ s t c r,
      (Program.printing words).session? settings.sorted.options
        (.buffer codes (.ofStrict settings.options.strictInput)) journal = some s ∧
      s.after settings.sorted 3 = some t ∧ t.Ends settings.sorted .halted t ∧
      t.machine.memory = s.machine.memory ∧
      runOn codes fuel settings (.printing words) journal = some c ∧ c.result = some r ∧
      r.status = "ok" ∧ r.final.status = .halted ∧ r.steps = 3 ∧
      r.output = words.map Word.lowByte ∧
      c.terminal.pending = codes ∧ c.terminal.received = [] := by
  have hfits : (Word.ofInt (Image.printing words).origin).toNat +
      (Image.printing words).words.length ≤ wordCount := by
    show 0x3000 + (((words ++ [0]).map fun w : Word => (w.toNat : Int)).length + 3) ≤ 0x10000
    rw [List.length_map, List.length_append, List.length_singleton]
    omega
  obtain ⟨s, hs, hat, hterminal⟩ := Program.exists_at (Program.image?_printing hlength) hstart hfits
    (.buffer codes (.ofStrict settings.options.strictInput)) journal
  obtain ⟨m₁, hbegin, hat₁, htaken⟩ := hat.take_address (hset .lea)
  obtain ⟨m₂, hprint, hat₂, hmemory₂, hprinted⟩ :=
    hat₁.print_string hwords htaken.result (hset .trap)
  obtain ⟨m₃, hhalt, hhalted, -, -, hmemory₃, hterminal₃⟩ :=
    hat₂.halt (Image.ordinary rfl (by decide)) rfl (hset .trap)
  obtain ⟨t, c, hafter, rfl, hends, hrun, hleaves⟩ :=
    run_of_halted_of_allows hallows hs ((hbegin.trans hprint).trans hhalt)
      (Processor.running_of_halted hhalted) hfuel
  obtain ⟨r, hr, hok, hstatus, hsteps, -, houtput⟩ := hleaves.halted hhalted
  have hshown : (Terminal.buffer codes (.ofStrict settings.options.strictInput)).Printed
      (words.map Word.lowByte) t.machine.terminal := by
    rw [htaken.terminal, hterminal] at hprinted
    rw [hterminal₃]
    exact Terminal.Printed.flush ⟨hprinted.written, hprinted.pending, hprinted.received⟩
  have hdevice : t.machine.terminal.device = .buffer := by
    refine Session.closed_after (Machine.closed_device .buffer) hafter ?_
    show s.machine.terminal.device = .buffer
    rw [hterminal]
    rfl
  refine ⟨s, t, c, r, hs, hafter, hends, ?_, hrun, hr, hok, hstatus, hsteps, ?_, ?_, ?_⟩
  · rw [hmemory₃, hmemory₂, htaken.memory]
  · rw [houtput, Terminal.output, hdevice]
    exact hshown.written
  · rw [hleaves.terminal]
    exact hshown.pending
  · rw [hleaves.terminal, Terminal.received_flush]
    exact hshown.received

/-- The longest string, over the keyboard registers and up to the last cell but one, on a terminal
that has a character to give. -/
theorem run_printing_longest :
    ∃ c r, runOn [0x21] 4 { options := { maxSteps := some 3 } }
        (.printing (List.replicate 0xCFFC 0x141)) ⟨.error, #[]⟩ = some c ∧ c.result = some r ∧
      r.status = "ok" ∧ r.output = List.replicate 0xCFFC 0x41 ∧ c.terminal.pending = [0x21] := by
  have hwords : ∀ w ∈ List.replicate 0xCFFC (0x141 : Word), w ≠ 0 := by
    intro w hw
    rw [List.eq_of_mem_replicate hw]
    decide
  have hstart : Word.ofInt
      (({ options := { maxSteps := some 3 } } : Settings).options.start 0x3000) = 0x3000 := rfl
  have hallows : Options.Allows { maxSteps := some 3 } 3 := by
    intro limit hlimit
    cases hlimit
    decide
  obtain ⟨s, t, c, r, -, -, -, -, hrun, hr, hstatus, -, -, houtput, hpending, -⟩ :=
    run_printing hwords (Nat.le_of_eq List.length_replicate) hstart hallows (fun _ => rfl) [0x21]
      ⟨.error, #[]⟩ (Nat.lt_succ_self 3)
  rw [List.map_replicate] at houtput
  exact ⟨c, r, hrun, hr, hstatus, houtput, hpending⟩

end LittleComputer
