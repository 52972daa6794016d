import LittleComputer.Memory.Table
import LittleComputer.Terminal

/-!
# Memory

65536 words of storage.  `peek` and `poke` are the plain accesses, and `peek_poke` is all that
matters about them.  A program reads through `read`, which treats one address specially: reading the
keyboard status register marks the keyboard ready and takes a character from the keyboard into the
keyboard data register.  Every other address, the data register included, is plain storage.
-/

namespace LittleComputer

/-- The contents of the whole address space. -/
structure Memory where
  /-- One word for each address. -/
  cells : Table Word 16

namespace Memory

/-- The address of the keyboard status register. -/
def keyboardStatus : Word := 0xFE00

/-- The address of the keyboard data register. -/
def keyboardData : Word := 0xFE02

/-- The status of a keyboard that has a character. -/
def keyboardReady : Word := 0x8000

/-- Memory full of zeros. -/
def empty : Memory := ⟨.replicate 0 16⟩

/-- The word at an address. -/
def peek (m : Memory) (address : Word) : Word := m.cells.get address.toNat

/-- Replaces the word at an address. -/
def poke (m : Memory) (address word : Word) : Memory := ⟨m.cells.set address.toNat word⟩

@[simp] theorem peek_empty (a : Word) : empty.peek a = 0 := by
  simp [empty, peek, Table.get_replicate]

/-- Addresses are in range for a table of sixteen index bits. -/
theorem toNat_mod_capacity (a : Word) : a.toNat % Table.capacity 16 = a.toNat :=
  Nat.mod_eq_of_lt a.isLt

theorem peek_poke (m : Memory) (a b w : Word) :
    (m.poke a w).peek b = if a = b then w else m.peek b := by
  simp only [peek, poke, Table.get_set, toNat_mod_capacity, BitVec.toNat_inj]

@[simp] theorem peek_poke_self (m : Memory) (a w : Word) : (m.poke a w).peek a = w := by
  simp [peek_poke]

theorem peek_poke_of_ne (m : Memory) {a b : Word} (w : Word) (h : a ≠ b) :
    (m.poke a w).peek b = m.peek b := by
  simp [peek_poke, h]

/-- Memory is determined by its cells. -/
theorem ext {m m' : Memory} (h : ∀ a, m.peek a = m'.peek a) : m = m' := by
  cases m with
  | mk s =>
    cases m' with
    | mk t =>
      congr 1
      apply Table.ext
      intro i hi
      have same := h (BitVec.ofNat 16 i)
      have small : i % 2 ^ 16 = i := Nat.mod_eq_of_lt hi
      rwa [peek, peek, BitVec.toNat_ofNat, small] at same

/-! ## Filling memory -/

/-- Writes a list of integers to consecutive addresses, each modulo `2 ^ 16`. -/
def store (m : Memory) (address : Nat) : List Int → Memory
  | [] => m
  | word :: rest => (m.poke (BitVec.ofNat 16 address) (Word.ofInt word)).store (address + 1) rest

/-- Places words from the origin on, and says how many.  Words past the end of the address space are
dropped. -/
def load (m : Memory) (origin : Int) (words : List Int) : Nat × Memory :=
  let first := (Word.ofInt origin).toNat
  let fitting := words.take (wordCount - first)
  (fitting.length, m.store first fitting)

/-- Writes values to addresses in turn, both modulo `2 ^ 16`. -/
def assign (m : Memory) (entries : List (Int × Int)) : Memory :=
  entries.foldl (fun m entry => m.poke (Word.ofInt entry.1) (Word.ofInt entry.2)) m

theorem peek_store (m : Memory) (address : Nat) (words : List Int) (a : Word)
    (fits : address + words.length ≤ wordCount) :
    (m.store address words).peek a =
      if h : address ≤ a.toNat ∧ a.toNat < address + words.length then
        Word.ofInt words[a.toNat - address]
      else m.peek a := by
  induction words generalizing m address with
  | nil => rw [store, dif_neg (by simp only [List.length_nil]; omega)]
  | cons word rest ih =>
    simp only [List.length_cons, wordCount] at fits
    rw [store, ih _ _ (by simp only [wordCount]; omega)]
    by_cases here : a.toNat = address
    · have same : BitVec.ofNat 16 address = a := by
        apply BitVec.eq_of_toNat_eq
        rw [BitVec.toNat_ofNat, here, Nat.mod_eq_of_lt (by omega)]
      rw [dif_neg (by omega), dif_pos (by simp only [List.length_cons]; omega), same,
        peek_poke_self]
      simp only [here, Nat.sub_self, List.getElem_cons_zero]
    · have other : BitVec.ofNat 16 address ≠ a := by
        rintro rfl
        rw [BitVec.toNat_ofNat, Nat.mod_eq_of_lt (by omega)] at here
        exact here rfl
      by_cases inside : address + 1 ≤ a.toNat ∧ a.toNat < address + 1 + rest.length
      · rw [dif_pos inside, dif_pos (by simp only [List.length_cons]; omega)]
        have : a.toNat - address = a.toNat - (address + 1) + 1 := by omega
        simp only [this, List.getElem_cons_succ]
      · rw [dif_neg inside, dif_neg (by simp only [List.length_cons]; omega),
          peek_poke_of_ne _ _ other]

/-! ## Reading -/

/-- Reads the word at an address as a program does.  `receive` draws the next character from
`source`; it is asked only where the address is that of the keyboard status register, and what it
gives lands in the keyboard data register modulo `2 ^ 16`.  If it stops, the status register is
marked ready already, and nothing else has changed. -/
def read {σ : Type} (receive : σ → Except Stop Nat × σ) (m : Memory) (source : σ)
    (address : Word) : Except Stop Word × Memory × σ :=
  if address = keyboardStatus then
    let m := m.poke keyboardStatus keyboardReady
    match receive source with
    | (.ok code, source) =>
      let m := m.poke keyboardData (BitVec.ofNat 16 code)
      (.ok (m.peek address), m, source)
    | (.error stop, source) => (.error stop, m, source)
  else (.ok (m.peek address), m, source)

theorem read_of_ne {σ : Type} (receive : σ → Except Stop Nat × σ) (m : Memory) (source : σ)
    {address : Word} (h : address ≠ keyboardStatus) :
    m.read receive source address = (.ok (m.peek address), m, source) := by
  simp [read, h]

/-- A completed read of the status register always finds the keyboard ready. -/
theorem read_keyboardStatus {σ : Type} (receive : σ → Except Stop Nat × σ) (m : Memory)
    {source rest : σ} {code : Nat} (h : receive source = (.ok code, rest)) :
    m.read receive source keyboardStatus = (.ok keyboardReady,
      (m.poke keyboardStatus keyboardReady).poke keyboardData (BitVec.ofNat 16 code), rest) := by
  have : keyboardData ≠ keyboardStatus := by decide
  simp [read, h, peek_poke, this]

/-! ## Looking without touching -/

/-- The addresses of a watch list that name a cell as they stand, each once. -/
def watchable (addresses : List Int) : List Word :=
  (addresses.filter fun (a : Int) => 0 ≤ a ∧ a < wordCount).eraseDups.map Word.ofInt

/-- The watched cells.  Integers outside the address space are ignored, not taken modulo its
size. -/
def watched (m : Memory) (addresses : List Int) : List (Word × Word) :=
  (watchable addresses).map fun a => (a, m.peek a)

/-- The cells that are not zero, in the order of their addresses. -/
def nonzero (m : Memory) : List (Nat × Word) := m.cells.select (· ≠ 0) 0 []

/-- The least distance from `start` on at which the cell `address + distance` is zero, among `fuel`
cells. -/
def zeroFrom? (m : Memory) (address : Word) (start : Nat) : (fuel : Nat) → Option Nat
  | 0 => none
  | fuel + 1 =>
    if m.peek (address + BitVec.ofNat 16 start) = 0 then some start
    else m.zeroFrom? address (start + 1) fuel

/-- The string at an address: the words up to the first zero word.  The string may run over the end
of the address space to its beginning.  There is none if no cell is zero. -/
def string? (m : Memory) (address : Word) : Option (List Word) :=
  (m.zeroFrom? address 0 wordCount).map fun length =>
    (List.range length).map fun i => m.peek (address + BitVec.ofNat 16 i)

theorem zeroFrom?_eq_some_iff (m : Memory) (address : Word) (start fuel n : Nat) :
    m.zeroFrom? address start fuel = some n ↔
      start ≤ n ∧ n < start + fuel ∧ m.peek (address + BitVec.ofNat 16 n) = 0 ∧
        ∀ i, start ≤ i → i < n → m.peek (address + BitVec.ofNat 16 i) ≠ 0 := by
  induction fuel generalizing start with
  | zero =>
    simp only [zeroFrom?, reduceCtorEq, false_iff]
    omega
  | succ fuel ih =>
    rw [zeroFrom?]
    split
    · next h =>
      constructor
      · rintro ⟨⟩
        exact ⟨Nat.le_refl _, by omega, h, fun i h₁ h₂ => by omega⟩
      · rintro ⟨h₁, -, -, h₂⟩
        rcases Nat.lt_or_eq_of_le h₁ with h₃ | h₃
        · exact absurd h (h₂ start (Nat.le_refl _) h₃)
        · rw [h₃]
    · next h =>
      rw [ih]
      constructor
      · rintro ⟨h₁, h₂, h₃, h₄⟩
        refine ⟨by omega, by omega, h₃, fun i h₅ h₆ => ?_⟩
        rcases Nat.lt_or_eq_of_le h₅ with h₇ | h₇
        · exact h₄ i h₇ h₆
        · exact h₇ ▸ h
      · rintro ⟨h₁, h₂, h₃, h₄⟩
        have : start ≠ n := by rintro rfl; exact h h₃
        exact ⟨by omega, by omega, h₃, fun i h₅ h₆ => h₄ i (by omega) h₆⟩

end Memory

end LittleComputer
