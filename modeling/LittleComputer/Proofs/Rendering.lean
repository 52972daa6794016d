import LittleComputer.Plain.Memory
import LittleComputer.Proofs.Traces

/-!
# States in plain integers

A processor or a memory of words can be written down in plain integers, each entry of a row as the
word at its place.  On rows that hold words the plain accesses do not miss, and what they leave
holds words again, since every write takes the low sixteen bits: reading, writing and filling come
to the same whether the state is written down before or after.

* `Plain.wrap_eq`, `Plain.common_plain`, `Plain.ofInt_not` — integers that stand for words.
* `Plain.Row.item_of_getElem?`, `Plain.Row.put_of_getElem?` — entries of a row that are there.
* `Processor.plain` — a processor in plain integers, with `Processor.plain_get`,
  `Processor.plain_set`, … for what is asked of it.
* `Memory.Rendered` — a memory in plain integers, with `Memory.Rendered.item`,
  `Memory.Rendered.put`, …; `Memory.Rendered.load`, `Memory.Rendered.assign` and
  `Memory.Rendered.watched` for the loops over it.
-/

namespace LittleComputer

/-- A word in plain integers. -/
def Word.plain (w : Word) : Int := w.toNat

namespace Plain

/-! ## Integers for words -/

/-- Wrapping an integer gives the word that it stands for. -/
theorem wrap_eq (value : Int) : wrap value = (Word.ofInt value).plain :=
  (Word.cast_toNat_ofInt value).symm

/-- Words stay as they are. -/
theorem wrap_plain (w : Word) : wrap w.plain = w.plain := by
  rw [wrap_eq]
  exact congrArg Word.plain w.ofInt_toNat

theorem common_plain (v w : Word) : common v.plain w.plain = (v &&& w).plain := by
  rw [Word.plain, Word.plain, Word.plain, BitVec.toNat_and]
  rfl

/-- The complement of an integer stands for the complement of its word. -/
theorem ofInt_not (w : Word) : Word.ofInt (-w.plain - 1) = ~~~w := by
  have hlt := w.isLt
  rw [Word.ofInt_eq_iff, BitVec.toNat_not, Word.plain]
  omega

/-! ## Rows -/

theorem place?_natCast {size i : Nat} (h : i < size) : place? size (i : Int) = some ⟨i, h⟩ := by
  rw [place?, dif_pos (by omega)]
  rfl

namespace Row

variable {row : Row} {i : Nat} {value : Int}

/-- An entry that is there is found, -/
theorem item_of_getElem? (h : row[i]? = some value) : row.item i = .ok value := by
  obtain ⟨hi, hvalue⟩ := Array.getElem?_eq_some_iff.1 h
  rw [item, place?_natCast hi]
  exact congrArg Except.ok hvalue

/-- and replaced. -/
theorem put_of_getElem? (h : row[i]? = some value) (value' : Int) :
    ∃ hi, row.put i value' = (.ok (), row.set i value' hi) := by
  obtain ⟨hi, -⟩ := Array.getElem?_eq_some_iff.1 h
  refine ⟨hi, ?_⟩
  rw [put, place?_natCast hi]

end Row

/-- The flag of a value that is a word is that of the word. -/
theorem Processor.flagFor_plain (w : Word) : flagFor w.plain = .ofWord w := by
  have hlt := w.isLt
  have hmsb : w.msb = true ↔ w.plain / 32768 ≠ 0 := by
    rw [BitVec.msb_eq_decide, decide_eq_true_iff, Word.plain]
    omega
  have hzero : w = 0 ↔ w.plain = 0 := by
    rw [← BitVec.toNat_inj]
    exact Int.natCast_eq_zero.symm
  unfold flagFor Condition.ofWord
  simp only [hmsb, hzero]

end Plain

/-! ## Processors -/

namespace Processor

/-- A processor in plain integers. -/
def plain (p : Processor) : Plain.Processor where
  registers := p.registers.toArray.map Word.plain
  pc := p.pc.plain
  cond := p.cond
  ir := p.ir
  status := p.status

variable (p : Processor) (r : Register)

theorem plain_reset (start : Int) : (reset start).plain = .reset start := by
  have hregisters : (reset start).plain.registers = .replicate 8 0 := by
    simp [plain, reset, Word.plain]
  rw [Plain.Processor.reset, Plain.wrap_eq, ← hregisters]
  rfl

theorem plain_jump (target : Int) : p.plain.jump target = (p.jump target).plain := by
  rw [Plain.Processor.jump, Plain.wrap_eq]
  rfl

theorem getElem?_plain : p.plain.registers[r.val]? = some (p.register r).plain := by
  simp [plain, register]

/-- A register is read. -/
theorem plain_get : p.plain.get r.val = .ok (p.register r).plain :=
  Plain.Row.item_of_getElem? (p.getElem?_plain r)

/-- A register is written, modulo `2 ^ 16`. -/
theorem plain_set (value : Int) :
    p.plain.set r.val value = (.ok (), (p.setRegister r (Word.ofInt value)).plain) := by
  obtain ⟨hr, hput⟩ := Plain.Row.put_of_getElem? (p.getElem?_plain r) (Plain.wrap value)
  have hregisters : p.plain.registers.set r.val (Plain.wrap value) hr =
      (p.setRegister r (Word.ofInt value)).plain.registers := by
    rw [Plain.wrap_eq]
    simp [plain, setRegister]
  rw [hregisters] at hput
  unfold Plain.Processor.set
  rw [plain] at hput ⊢
  dsimp only at hput ⊢
  rw [hput]
  rfl

/-- The flags are set. -/
theorem plain_updateFlags : p.plain.updateFlags r.val = (.ok (), (p.setFlags r).plain) := by
  rw [Plain.Processor.updateFlags, plain_get]
  dsimp only
  rw [Plain.Processor.flagFor_plain]
  rfl

end Processor

/-! ## Memory -/

/-- `m.Rendered p` : the plain memory `p` holds what `m` does. -/
structure Memory.Rendered (m : Memory) (p : Plain.Memory) : Prop where
  /-- There are as many cells as addresses. -/
  size : p.cells.size = wordCount
  /-- Each cell holds its word. -/
  cell : ∀ a : Word, p.cells[a.toNat]? = some (m.peek a).plain

namespace Memory

theorem rendered_empty : empty.Rendered .empty where
  size := Array.size_replicate
  cell a := by
    have ha : a.toNat < wordCount := a.isLt
    simp [Plain.Memory.empty, Word.plain, ha]

namespace Rendered

variable {m : Memory} {p : Plain.Memory} (h : m.Rendered p) (a w : Word)

include h

/-- A cell is looked at. -/
theorem item : p.cells.item a.plain = .ok (m.peek a).plain :=
  Plain.Row.item_of_getElem? (h.cell a)

/-- A cell is replaced. -/
theorem put : ∃ cells, p.cells.put a.plain w.plain = (.ok (), cells) ∧
    (m.poke a w).Rendered ⟨cells⟩ := by
  obtain ⟨ha, hput⟩ := Plain.Row.put_of_getElem? (h.cell a) w.plain
  refine ⟨_, hput, ?_⟩
  constructor
  case size => exact (Array.size_set ha).trans h.size
  case cell =>
    intro b
    rw [peek_poke, Array.getElem?_set]
    by_cases hab : a = b
    · rw [hab, if_pos rfl, if_pos rfl]
    · have hne : a.toNat ≠ b.toNat := fun heq => hab (BitVec.eq_of_toNat_eq heq)
      rw [if_neg hab, if_neg hne]
      exact h.cell b

theorem poke (address word : Int) : ∃ p', p.poke address word = (.ok (), p') ∧
    (m.poke (Word.ofInt address) (Word.ofInt word)).Rendered p' := by
  obtain ⟨cells, hput, hstored⟩ := h.put (Word.ofInt address) (Word.ofInt word)
  obtain ⟨row⟩ := p
  refine ⟨⟨cells⟩, ?_, hstored⟩
  rw [Plain.Memory.poke, Plain.wrap_eq, Plain.wrap_eq, hput]

omit h in
/-- Words are written up to the end of memory. -/
theorem store (h : m.Rendered p) (words : List Int) (address count : Nat) :
    ∃ p', p.store address count words =
        (.ok (count + (words.take (wordCount - address)).length), p') ∧
      (m.store address (words.take (wordCount - address))).Rendered p' := by
  induction words generalizing m p address count with
  | nil =>
      rw [List.take_nil]
      exact ⟨p, rfl, h⟩
  | cons word rest ih =>
      obtain ⟨cells⟩ := p
      by_cases hend : wordCount ≤ address
      · have hnone : wordCount - address = 0 := by omega
        refine ⟨⟨cells⟩, ?_, ?_⟩
        · rw [hnone, Plain.Memory.store, if_pos (Int.ofNat_le.2 hend)]
          rfl
        · rw [hnone]
          exact h
      · have hmore : wordCount - address = wordCount - (address + 1) + 1 := by omega
        have hlt : address < 2 ^ 16 := by
          simp only [wordCount] at hend
          omega
        have haddress : Word.plain (BitVec.ofNat 16 address) = address := by
          rw [Word.plain, BitVec.toNat_ofNat, Nat.mod_eq_of_lt hlt]
        obtain ⟨cells', hput, hstored⟩ := h.put (BitVec.ofNat 16 address) (Word.ofInt word)
        rw [haddress, ← Plain.wrap_eq] at hput
        obtain ⟨p', hstore, hrest⟩ := ih hstored (address + 1) (count + 1)
        refine ⟨p', ?_, ?_⟩
        · rw [Plain.Memory.store, if_neg fun hle => hend (Int.ofNat_le.1 hle), hput]
          rw [Int.natCast_add, Int.natCast_one] at hstore
          rw [hmore, List.take_succ_cons, List.length_cons, ← Nat.add_assoc, Nat.add_right_comm]
          exact hstore
        · rw [hmore, List.take_succ_cons, Memory.store]
          exact hrest

/-- An image is placed. -/
theorem load (origin : Int) (words : List Int) :
    ∃ p', p.load origin words = (.ok (m.load origin words).1, p') ∧
      (m.load origin words).2.Rendered p' := by
  obtain ⟨p', hstore, hfilled⟩ := h.store words (Word.ofInt origin).toNat 0
  refine ⟨p', ?_, hfilled⟩
  rw [Plain.Memory.load, Plain.wrap_eq, Word.plain, hstore, Nat.zero_add]
  rfl

omit h in
/-- Values are written one after the other. -/
theorem assign (h : m.Rendered p) (entries : List (Int × Int)) :
    ∃ p', p.assign entries = (.ok (), p') ∧ (m.assign entries).Rendered p' := by
  induction entries generalizing m p with
  | nil => exact ⟨p, rfl, h⟩
  | cons entry rest ih =>
      obtain ⟨address, value⟩ := entry
      obtain ⟨p₁, hpoke, hstored⟩ := h.poke address value
      obtain ⟨p', hassign, hrest⟩ := ih hstored
      refine ⟨p', ?_, hrest⟩
      rw [Plain.Memory.assign, hpoke]
      exact hassign

/-- Cells are looked at one after the other, -/
theorem view (addresses : List Int) (inside : ∀ a ∈ addresses, 0 ≤ a ∧ a < (wordCount : Nat)) :
    p.view addresses = .ok (addresses.map fun a => (a, (m.peek (Word.ofInt a)).plain)) := by
  induction addresses with
  | nil => rfl
  | cons a rest ih =>
      obtain ⟨hlow, hhigh⟩ := inside a (.head _)
      have ha : (Word.ofInt a).plain = a := by
        simp only [wordCount] at hhigh
        rw [Word.plain, Word.cast_toNat_ofInt]
        omega
      have hitem := h.item (Word.ofInt a)
      rw [ha] at hitem
      rw [Plain.Memory.view, hitem, ih fun b hb => inside b (.tail _ hb)]
      rfl

/-- and so are the watched ones. -/
theorem watched (addresses : List Int) :
    p.watched addresses =
      .ok ((m.watched addresses).map fun cell => (cell.1.plain, cell.2.plain)) := by
  have hinside : ∀ a ∈ (addresses.filter fun (a : Int) => 0 ≤ a ∧ a < wordCount).eraseDups,
      0 ≤ a ∧ a < (wordCount : Nat) := by
    intro a ha
    rw [List.mem_eraseDups, List.mem_filter] at ha
    exact of_decide_eq_true ha.2
  rw [Plain.Memory.watched, h.view _ hinside, Memory.watched, watchable, List.map_map,
    List.map_map]
  refine congrArg Except.ok (List.map_congr_left fun a ha => ?_)
  obtain ⟨hlow, hhigh⟩ := hinside a ha
  simp only [wordCount] at hhigh
  simp only [Function.comp_apply, Prod.mk.injEq, and_true]
  rw [Word.plain, Word.cast_toNat_ofInt]
  omega

end Rendered

end Memory

end LittleComputer
