import LittleComputer.Proofs.Banks

/-!
# Snapshots of memory

A table is a tree, but what it holds is a list with one entry for each index.  A snapshot goes
through the tree of all cells and keeps those that are not zero.

* `Table.select_eq` — selecting from a table is filtering that list.
* `Table.mem_select_iff`, `Table.pairwise_select` — entries are selected at their own index and in
  order.
* `Memory.Bank.snapshot_after` — **a snapshot shows what has been stored last.**
-/

namespace LittleComputer

namespace Table

variable {α : Type} {n : Nat}

theorem get_node_low (low high : Table α n) {i : Nat} (h : i < capacity n) :
    (node low high).get i = low.get i := by
  have hbit : i.testBit n = false := Nat.testBit_lt_two_pow h
  rw [get, hbit]
  rfl

theorem get_node_high (low high : Table α n) {i : Nat} (h : i < capacity n) :
    (node low high).get (capacity n + i) = high.get i := by
  have hbit : (capacity n + i).testBit n = true := by
    unfold capacity at h ⊢
    rw [Nat.pow_eq, Nat.testBit_two_pow_add_eq, Nat.testBit_lt_two_pow h]
    rfl
  rw [get, hbit, if_pos rfl, ← get_mod, Nat.add_mod_left, get_mod]

/-- The entries of a table in order, numbered from `first` on. -/
def entries (t : Table α n) (first : Nat) : List (Nat × α) :=
  (List.range (capacity n)).map fun i => (first + i, t.get i)

theorem entries_node (low high : Table α n) (first : Nat) :
    (node low high).entries first = low.entries first ++ high.entries (first + capacity n) := by
  unfold entries
  rw [capacity_succ, List.range_add, List.map_append, List.map_map]
  congr 1
  · refine List.map_congr_left fun i hi => ?_
    rw [get_node_low low high (List.mem_range.1 hi)]
  · refine List.map_congr_left fun i hi => ?_
    rw [Function.comp, get_node_high low high (List.mem_range.1 hi), Nat.add_assoc]

/-- **Selecting entries is filtering the list of them.** -/
theorem select_eq (p : α → Bool) (t : Table α n) (first : Nat) (acc : List (Nat × α)) :
    t.select p first acc = (t.entries first).filter (fun entry => p entry.2) ++ acc := by
  induction n generalizing first acc with
  | zero =>
      cases t with
      | leaf entry =>
          show (if p entry then (first, entry) :: acc else acc) =
            [(first, entry)].filter (fun entry => p entry.2) ++ acc
          cases hp : p entry <;> simp [hp]
  | succ n ih =>
      cases t with
      | node low high =>
          rw [select, ih, ih, entries_node, List.filter_append, List.append_assoc]

/-- An entry is selected at its own index. -/
theorem mem_select_iff (p : α → Bool) (t : Table α n) (i : Nat) (entry : α) :
    (i, entry) ∈ t.select p 0 [] ↔ i < capacity n ∧ t.get i = entry ∧ p entry = true := by
  rw [select_eq, List.append_nil, List.mem_filter, entries, List.mem_map]
  constructor
  · rintro ⟨⟨j, hj, hentry⟩, hp⟩
    obtain ⟨rfl, rfl⟩ := Prod.mk.inj hentry
    rw [Nat.zero_add]
    exact ⟨List.mem_range.1 hj, rfl, hp⟩
  · rintro ⟨hi, rfl, hp⟩
    exact ⟨⟨i, List.mem_range.2 hi, by rw [Nat.zero_add]⟩, hp⟩

/-- Entries are selected in order. -/
theorem pairwise_select (p : α → Bool) (t : Table α n) :
    (t.select p 0 []).Pairwise fun e e' => e.1 < e'.1 := by
  rw [select_eq, List.append_nil, entries]
  refine List.Pairwise.filter _ (List.pairwise_map.2 ?_)
  exact List.pairwise_lt_range.imp fun h => Nat.add_lt_add_left h 0

end Table

namespace Memory

/-- A cell is among those that are not zero if it is not. -/
theorem mem_nonzero_iff (m : Memory) (a w : Word) :
    (a.toNat, w) ∈ m.nonzero ↔ m.peek a = w ∧ w ≠ 0 := by
  rw [nonzero, Table.mem_select_iff, decide_eq_true_iff]
  exact and_iff_right a.isLt

/-- **A snapshot shows what has been stored last**, whatever has been requested before: the cells
that are not zero by now, in the order of their addresses.  It leaves the bank as it is. -/
theorem Bank.snapshot_after (initial : Assignments) (input : Option Input)
    (requests : List Request) :
    ∃ cells, ((start initial input).after requests).perform .snapshot =
        (.ok (.nonzero cells), (start initial input).after requests) ∧
      (cells.Pairwise fun c c' => c.1 < c'.1) ∧
      ∀ a w : Word, (a.toNat, w) ∈ cells ↔
        (w.toNat : Int) = lastValue initial (history input 0 requests) a.toNat ∧ w ≠ 0 := by
  refine ⟨_, rfl, Table.pairwise_select _ _, fun a w => ?_⟩
  rw [mem_nonzero_iff, (follows_after (follows_start initial input) requests).memory]
  rw [← peek_assign_stores, Word.ofInt_toNat, Int.natCast_inj, BitVec.toNat_inj, eq_comm]

end Memory

end LittleComputer
