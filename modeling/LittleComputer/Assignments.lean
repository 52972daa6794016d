/-!
# Assignments

Values given to integer keys, in the order in which the keys first came.  Giving a key another value
replaces the value and keeps the place.
-/

namespace LittleComputer

/-- Values by key, in order of first appearance. -/
structure Assignments where
  /-- The keys with their values. -/
  entries : List (Int × Int) := []
  deriving DecidableEq, Repr

namespace Assignments

/-- Gives a key a value. -/
def insert (a : Assignments) (key value : Int) : Assignments :=
  if a.entries.any (·.1 == key) then
    ⟨a.entries.map fun entry => if entry.1 == key then (key, value) else entry⟩
  else ⟨a.entries ++ [(key, value)]⟩

/-- A key that has no value yet comes last. -/
theorem insert_of_not_mem {a : Assignments} {key value : Int}
    (h : key ∉ a.entries.map Prod.fst) :
    a.insert key value = ⟨a.entries ++ [(key, value)]⟩ := by
  have hnone : ¬ a.entries.any (·.1 == key) = true := by
    rw [List.any_eq_true]
    rintro ⟨entry, hmem, hkey⟩
    exact h (List.mem_map.2 ⟨entry, hmem, eq_of_beq hkey⟩)
  rw [insert, if_neg hnone]

/-- The assignments made by a list of pairs in turn. -/
def ofList (pairs : List (Int × Int)) : Assignments :=
  pairs.foldl (fun a pair => a.insert pair.1 pair.2) {}

example : (ofList [(1, 10), (2, 20), (1, 30)]).entries = [(1, 30), (2, 20)] := by decide

end Assignments

end LittleComputer
