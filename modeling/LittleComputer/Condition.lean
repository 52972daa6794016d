import LittleComputer.Word

/-!
# Condition codes

The condition register holds three flags, laid out like the `n`, `z` and `p` bits of a branch.  A
running machine keeps exactly one of them set: the sign class of the last result.
-/

namespace LittleComputer

/-- The condition register: bit 0 is *positive*, bit 1 *zero*, bit 2 *negative*. -/
abbrev Condition := BitVec 3

namespace Condition

/-- The flag of a positive result. -/
def positive : Condition := 1#3

/-- The flag of a zero result. -/
def zero : Condition := 2#3

/-- The flag of a negative result. -/
def negative : Condition := 4#3

/-- The sign class of a word read as a signed number. -/
def ofWord (w : Word) : Condition :=
  if w.msb then negative else if w = 0 then zero else positive

/-- The flags with their names, lowest bit first. -/
def flags : List (Condition × String) :=
  [(positive, "POSITIVE"), (zero, "ZERO"), (negative, "NEGATIVE")]

/-- The names of the set flags, lowest bit first and joined by bars; no flags have no name. -/
def name? (c : Condition) : Option String :=
  match flags.filter (fun flag => c &&& flag.1 ≠ 0) with
  | [] => none
  | set => some ("|".intercalate (set.map Prod.snd))

theorem ofWord_cases (w : Word) : ofWord w = positive ∨ ofWord w = zero ∨ ofWord w = negative := by
  unfold ofWord
  split
  · exact .inr (.inr rfl)
  · split
    · exact .inr (.inl rfl)
    · exact .inl rfl

/-- Only zero has the flag of zero. -/
theorem ofWord_eq_zero_iff (w : Word) : ofWord w = zero ↔ w = 0 := by
  unfold ofWord
  split
  · rename_i hnegative
    refine iff_of_false (by decide) ?_
    rintro rfl
    cases hnegative
  · split
    · rename_i hzero
      exact iff_of_true rfl hzero
    · rename_i hpositive
      exact iff_of_false (by decide) hpositive

example : name? 6 = some "ZERO|NEGATIVE" := by cbv
example : name? 0 = none := by cbv

end Condition

end LittleComputer
