import LittleComputer.Proofs.Simulation
import LittleComputer.Text.Latin

/-!
# Runs on other devices

A console and a buffer differ in where the output goes, strict and lenient terminals in what the
end of the input is.  Everything else about them is the same, and so are the runs on them.

* `Terminal.on` — the same terminal, of another make.
* `Terminal.Overrun` — the program has asked for more characters than there are.
* `Terminal.simulation_on` — terminals agree with those of another make, unless their policies
  differ and the input is overrun.
-/

namespace LittleComputer

/-! ## Terminals of another make -/

namespace Terminal

variable (t : Terminal) (device : Device) (policy : EndOfInput)

/-- The same terminal on another device, with another policy for the end of the input. -/
def on : Terminal := { t with device, atEnd := policy }

/-- The program has asked for a character where none was left. -/
def Overrun : Prop := Event.read none ∈ t.transcript.toList

instance : Decidable t.Overrun :=
  inferInstanceAs (Decidable (Event.read none ∈ t.transcript.toList))

theorem writeAll_on (codes : List Int) :
    (t.on device policy).writeAll codes = (t.writeAll codes).on device policy := by
  induction codes generalizing t with
  | nil => rfl
  | cons code rest ih => exact ih (t.write code)

/-- As long as there are characters, reading does not depend on the make. -/
theorem read_on_of_ne_nil (h : t.pending ≠ []) :
    (t.on device policy).read = (t.read.1, t.read.2.on device policy) := by
  obtain ⟨_, _, pending, _, _, _⟩ := t
  cases pending with
  | nil => exact absurd rfl h
  | cons code rest => rfl

/-- Nor does it if the policy is the same. -/
theorem read_on_atEnd : (t.on device t.atEnd).read = (t.read.1, t.read.2.on device t.atEnd) := by
  obtain ⟨_, policy, pending, _, _, _⟩ := t
  cases pending with
  | nil => cases policy <;> rfl
  | cons code rest => rfl

/-- A read overruns the input where no character is left. -/
theorem overrun_read : t.read.2.Overrun ↔ t.Overrun ∨ t.pending = [] := by
  obtain ⟨_, policy, pending, _, _, _⟩ := t
  cases pending with
  | nil =>
      refine iff_of_true ?_ (.inr rfl)
      cases policy <;> simp [read, record, Overrun]
  | cons code rest => simp [read, record, Overrun]

theorem overrun_writeAll (codes : List Int) : (t.writeAll codes).Overrun ↔ t.Overrun := by
  induction codes generalizing t with
  | nil => rfl
  | cons code rest ih =>
      have hwrite : (t.write code).Overrun ↔ t.Overrun := by simp [write, record, Overrun]
      exact (ih (t.write code)).trans hwrite

theorem overrun_flush : t.flush.Overrun ↔ t.Overrun := by
  simp [flush, record, Overrun]

end Terminal

/-- Another policy for the end of the input shows from then on. -/
theorem Machine.closed_overrun_ne (policy : EndOfInput) :
    Closed fun m => m.terminal.atEnd ≠ policy ∧ m.terminal.Overrun where
  setRegister _ _ hm := hm
  setResult _ _ hm := hm
  store _ _ hm := hm
  read hm :=
    ⟨fun h => hm.1 ((Terminal.atEnd_read _).symm.trans h), (Terminal.overrun_read _).2 (.inl hm.2)⟩
  writeAll codes hm :=
    ⟨fun h => hm.1 ((Terminal.input_writeAll _ codes).2.symm.trans h),
      (Terminal.overrun_writeAll _ codes).2 hm.2⟩
  flush hm := ⟨hm.1, (Terminal.overrun_flush _).2 hm.2⟩
  resetCodes hm := hm
  move _ _ hm := hm
  setStatus _ hm := hm

/-- **Terminals of different makes agree**, unless the policy differs and the input is overrun. -/
theorem Terminal.simulation_on (device : Device) (policy : EndOfInput) :
    Simulation (fun t t' => t' = t.on device policy) fun t => t.atEnd ≠ policy ∧ t.Overrun where
  codes := by
    rintro t _ rfl
    exact ⟨rfl, rfl⟩
  read := by
    rintro t _ rfl
    by_cases hpending : t.pending = []
    · by_cases hpolicy : t.atEnd = policy
      · subst hpolicy
        rw [read_on_atEnd]
        exact .inr ⟨rfl, rfl⟩
      · refine .inl ⟨?_, (overrun_read t).2 (.inr hpending)⟩
        rw [atEnd_read]
        exact hpolicy
    · rw [read_on_of_ne_nil t device policy hpending]
      exact .inr ⟨rfl, rfl⟩
  writeAll := by
    rintro t _ codes rfl
    exact writeAll_on t device policy codes
  flush := by
    rintro t _ rfl
    rfl
  resetCodes := by
    rintro t _ rfl
    rfl
  lost := Machine.closed_overrun_ne policy

/-- The bytes of a console are the characters of a buffer. -/
theorem Text.codes_ofBytes (bytes : List Byte) :
    (ofBytes bytes).toList.map Char.toNat = bytes.map BitVec.toNat := by
  rw [ofBytes, String.toList_ofList, List.map_map]
  exact List.map_congr_left fun byte _ => toNat_charOfByte byte

end LittleComputer
