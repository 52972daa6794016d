/-!
# Tables indexed by bits

A table of `2 ^ n` entries is a complete binary tree with one level per index bit, highest bit at
the root.  Reading and writing take `n` steps, and an unchanged half is shared, not copied.  Only
the low `n` bits of an index count (`get_set`).
-/

namespace LittleComputer

/-- A table with one entry for each string of `n` bits. -/
inductive Table (α : Type) : Nat → Type where
  /-- The only entry. -/
  | leaf (entry : α) : Table α 0
  /-- The entries whose highest index bit is clear, and those where it is set. -/
  | node {n : Nat} (low high : Table α n) : Table α (n + 1)

namespace Table

variable {α : Type} {n : Nat}

/-- The number of entries of a table with `n` index bits. -/
def capacity (n : Nat) : Nat := Nat.pow 2 n

/-- The table with the same entry everywhere. -/
def replicate (entry : α) : (n : Nat) → Table α n
  | 0 => .leaf entry
  | n + 1 =>
    let half := replicate entry n
    .node half half

/-- The entry at an index. -/
def get : {n : Nat} → Table α n → Nat → α
  | 0, .leaf entry, _ => entry
  | n + 1, .node low high, index => if index.testBit n then high.get index else low.get index

/-- Replaces the entry at an index. -/
def set : {n : Nat} → Table α n → Nat → α → Table α n
  | 0, .leaf _, _, entry => .leaf entry
  | n + 1, .node low high, index, entry =>
    if index.testBit n then .node low (high.set index entry)
    else .node (low.set index entry) high

/-- Prepends to `acc` the entries that `p` selects, with their indexes and in that order.  The
first entry counts as number `first`. -/
def select (p : α → Bool) : {n : Nat} → Table α n → (first : Nat) → (acc : List (Nat × α)) →
    List (Nat × α)
  | 0, .leaf entry, first, acc => if p entry then (first, entry) :: acc else acc
  | n + 1, .node low high, first, acc =>
    low.select p first (high.select p (first + capacity n) acc)

theorem get_replicate (entry : α) (index : Nat) : (replicate entry n).get index = entry := by
  induction n with
  | zero => rfl
  | succ n ih => simp [replicate, get, ih]

theorem capacity_succ (n : Nat) : capacity (n + 1) = capacity n + capacity n := by
  unfold capacity
  rw [Nat.pow_eq, Nat.pow_eq, Nat.pow_succ]
  omega

/-- The low `n + 1` bits of two indexes agree exactly if their low `n` bits and their bits `n` do. -/
theorem mod_capacity_succ_eq_iff (i j n : Nat) :
    i % capacity (n + 1) = j % capacity (n + 1) ↔
      i % capacity n = j % capacity n ∧ i.testBit n = j.testBit n := by
  have hi : i % 2 ^ n < 2 ^ n := Nat.mod_lt i (Nat.two_pow_pos n)
  have hj : j % 2 ^ n < 2 ^ n := Nat.mod_lt j (Nat.two_pow_pos n)
  unfold capacity
  simp only [Nat.pow_eq]
  rw [Nat.mod_pow_succ, Nat.mod_pow_succ, Nat.testBit_eq_decide_div_mod_eq,
    Nat.testBit_eq_decide_div_mod_eq, decide_eq_decide]
  generalize 2 ^ n = size at hi hj ⊢
  generalize i % size = low at hi ⊢
  generalize j % size = low' at hj ⊢
  rcases Nat.mod_two_eq_zero_or_one (i / size) with h₁ | h₁ <;>
    rcases Nat.mod_two_eq_zero_or_one (j / size) with h₂ | h₂ <;>
    rw [h₁, h₂] <;> omega

/-- Two indexes name the same entry exactly if their low `n` bits agree. -/
theorem get_set (t : Table α n) (i j : Nat) (entry : α) :
    (t.set i entry).get j = if i % capacity n = j % capacity n then entry else t.get j := by
  induction n with
  | zero => cases t; simp [set, get, capacity, Nat.mod_one]
  | succ n ih =>
    cases t with
    | node low high =>
      simp only [mod_capacity_succ_eq_iff]
      cases bi : i.testBit n <;> cases bj : j.testBit n <;> simp [set, get, bi, bj, ih]

/-- Only the low `n` bits of an index count. -/
theorem get_mod (t : Table α n) (i : Nat) : t.get (i % capacity n) = t.get i := by
  suffices h : ∀ i j, i % capacity n = j % capacity n → t.get i = t.get j from h _ _ (Nat.mod_mod ..)
  clear i
  induction n with
  | zero => cases t; intros; rfl
  | succ n ih =>
    cases t with
    | node low high =>
      intro i j h
      obtain ⟨h₁, h₂⟩ := (mod_capacity_succ_eq_iff i j n).1 h
      simp only [get, h₂, ih low i j h₁, ih high i j h₁]

/-- A table is determined by its entries. -/
theorem ext {s t : Table α n} (h : ∀ i < capacity n, s.get i = t.get i) : s = t := by
  induction n with
  | zero =>
    cases s; cases t
    simpa [get] using h 0 (by decide)
  | succ n ih =>
    cases s with
    | node low high =>
      cases t with
      | node low' high' =>
        congr 1
        · apply ih
          intro i hi
          have hb : i.testBit n = false := Nat.testBit_lt_two_pow hi
          simpa only [get, hb, Bool.false_eq_true, if_false] using h i (by
            rw [capacity_succ]; omega)
        · apply ih
          intro i hi
          have hb : (capacity n + i).testBit n = true := by
            unfold capacity at hi ⊢
            rw [Nat.pow_eq, Nat.testBit_two_pow_add_eq, Nat.testBit_lt_two_pow hi]
            rfl
          have key := h (capacity n + i) (by rw [capacity_succ]; omega)
          simp only [get, hb, if_true] at key
          rwa [← get_mod high, ← get_mod high', Nat.add_mod_left, get_mod, get_mod] at key

end Table

end LittleComputer
