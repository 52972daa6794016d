import LittleComputer.Proofs.Input
import LittleComputer.Proofs.Output

/-!
# The string routines, turn by turn

The two routines that write strings look for the end of the string first and write all of it then.
Seen from outside they are a loop: look at a cell, end if it is zero, write what it stands for, and
go on to the next address.  The address only counts up; memory takes it modulo its size, so after
the last cell comes the first.

* `StringLoop`, `StringLoop.after` — such a loop under way, and the same after some turns.
* `StringLoop.after_eq_some_iff` — how far the turns lead, in one step.
* `Memory.exists_firstZero` — **the loop ends within one round of memory, or never**.
* `Exec.writeString_eq_ok_iff`, `Exec.writeString_endless_iff` — the routines are this loop.
* `Trap.WritesString`, `Trap.writesString` — **what the routines write**, and that nothing else
  changes.
-/

namespace LittleComputer

/-! ## Writing and nothing else -/

namespace Terminal

/-- Writes some bytes. -/
def print (t : Terminal) (bytes : List Byte) : Terminal :=
  t.writeAll (bytes.map fun b => (b.toNat : Int))

/-- `t.Printed bytes t'` : from `t` to `t'` these bytes have been written, and nothing has been
read. -/
structure Printed (t : Terminal) (bytes : List Byte) (t' : Terminal) : Prop where
  /-- The bytes come after those from before. -/
  written : t'.written = t.written ++ bytes
  /-- The input is where it was. -/
  pending : t'.pending = t.pending
  /-- No character has been asked for. -/
  received : t'.received = t.received

theorem write_eq_write (t : Terminal) {code code' : Int}
    (h : BitVec.ofInt 8 code = BitVec.ofInt 8 code') : t.write code = t.write code' := by
  rw [write, write, h]

/-- Of a code only the low byte is written. -/
theorem writeAll_eq_print (t : Terminal) (codes : List Int) :
    t.writeAll codes = t.print (codes.map (BitVec.ofInt 8)) := by
  induction codes generalizing t with
  | nil => rfl
  | cons code rest ih =>
      have hlow : BitVec.ofInt 8 code = BitVec.ofInt 8 (BitVec.ofInt 8 code).toNat := by
        rw [BitVec.ofInt_natCast, BitVec.ofNat_toNat, BitVec.setWidth_eq]
      show (t.write code).writeAll rest =
        (t.write (BitVec.ofInt 8 code).toNat).print (rest.map (BitVec.ofInt 8))
      rw [t.write_eq_write hlow]
      exact ih _

theorem print_append (t : Terminal) (bytes bytes' : List Byte) :
    t.print (bytes ++ bytes') = (t.print bytes).print bytes' := by
  rw [print, print, print, List.map_append, writeAll, List.foldl_append]
  rfl

theorem printed_print (t : Terminal) (bytes : List Byte) : t.Printed bytes (t.print bytes) where
  written := by
    have hbytes : bytes.map (BitVec.ofInt 8 ∘ fun b => (b.toNat : Int)) = bytes := by
      refine (List.map_congr_left fun b _ => ?_).trans (List.map_id bytes)
      rw [Function.comp, BitVec.ofInt_natCast, BitVec.ofNat_toNat, BitVec.setWidth_eq]
      rfl
    rw [print, written_writeAll, List.map_map, hbytes]
  pending := (t.input_writeAll _).1
  received := t.received_writeAll _

theorem Printed.flush {t t' : Terminal} {bytes : List Byte} (h : t.Printed bytes t') :
    t.Printed bytes t'.flush :=
  ⟨(written_flush t').trans h.written, h.pending, (received_flush t').trans h.received⟩

end Terminal

/-! ## The loop -/

/-- A string being written: the address that has been reached and the machine so far. -/
structure StringLoop where
  /-- The address of the next word.  It counts up without end. -/
  address : Nat
  /-- The machine. -/
  machine : Machine

namespace StringLoop

variable {bytes : Word → List Byte} {m : Machine}

/-- The next word; memory takes the address modulo its size. -/
def word (s : StringLoop) : Word := s.machine.memory.peek (BitVec.ofNat 16 s.address)

/-- One turn: a zero word is the end; for any other its bytes are written, and the next address is
reached. -/
def next? (bytes : Word → List Byte) (s : StringLoop) : Option StringLoop :=
  if s.word = 0 then none
  else some ⟨s.address + 1, s.machine.withTerminal (s.machine.terminal.print (bytes s.word))⟩

/-- What the string at the address in the first register has come to after some turns, if it has not
ended before. -/
def after (bytes : Word → List Byte) (m : Machine) : Nat → Option StringLoop
  | 0 => some ⟨(m.processor.register .r0).toNat, m⟩
  | n + 1 => (after bytes m n).bind (next? bytes)

end StringLoop

/-- The cell at a distance from the address in the first register. -/
def Machine.stringCell (m : Machine) (i : Nat) : Word :=
  m.memory.peek (BitVec.ofNat 16 ((m.processor.register .r0).toNat + i))

namespace StringLoop

variable {bytes : Word → List Byte} {m : Machine} {n : Nat} {s : StringLoop}

/-- **After some turns** the bytes of as many cells have been written, if none of them was zero.
Writing changes no cell, so they are the cells of the machine at first. -/
theorem after_eq_some_iff :
    after bytes m n = some s ↔ (∀ i < n, m.stringCell i ≠ 0) ∧
      s = ⟨(m.processor.register .r0).toNat + n,
        m.withTerminal (m.terminal.print ((List.range n).flatMap fun i =>
          bytes (m.stringCell i)))⟩ := by
  induction n generalizing s with
  | zero =>
      constructor
      · rintro ⟨⟩
        exact ⟨fun i hi => absurd hi (Nat.not_lt_zero i), rfl⟩
      · rintro ⟨-, rfl⟩
        rfl
  | succ n ih =>
      rw [after, Option.bind_eq_some_iff]
      have hprint : m.terminal.print ((List.range (n + 1)).flatMap fun i =>
          bytes (m.stringCell i)) =
            (m.terminal.print ((List.range n).flatMap fun i => bytes (m.stringCell i))).print
              (bytes (m.stringCell n)) := by
        rw [List.range_succ, List.flatMap_append, Terminal.print_append, List.flatMap_singleton]
      rw [hprint]
      constructor
      · rintro ⟨u, hu, hnext⟩
        obtain ⟨hbefore, rfl⟩ := ih.1 hu
        rw [next?] at hnext
        split at hnext
        · cases hnext
        · rename_i hword
          cases hnext
          refine ⟨fun i hi => ?_, rfl⟩
          obtain hlt | rfl := Nat.lt_succ_iff_lt_or_eq.1 hi
          · exact hbefore i hlt
          · exact hword
      · rintro ⟨hbefore, rfl⟩
        refine ⟨_, ih.2 ⟨fun i hi => hbefore i (Nat.lt_succ_of_lt hi), rfl⟩, ?_⟩
        rw [next?]
        exact if_neg (hbefore n (Nat.lt_succ_self n))

end StringLoop

/-! ## One round of memory -/

namespace Memory

/-- **A zero cell ends every string**, within one round of memory. -/
theorem exists_firstZero {m : Memory} (h : ∃ a, m.peek a = 0) (address : Word) :
    ∃ n < wordCount, m.string? address =
        some ((List.range n).map fun i => m.peek (address + BitVec.ofNat 16 i)) ∧
      m.peek (address + BitVec.ofNat 16 n) = 0 ∧
      ∀ i < n, m.peek (address + BitVec.ofNat 16 i) ≠ 0 := by
  cases hs : m.string? address with
  | none =>
      obtain ⟨a, ha⟩ := h
      exact absurd ha ((m.string?_eq_none_iff address).1 hs a)
  | some words =>
      rw [string?, Option.map_eq_some_iff] at hs
      obtain ⟨n, hn, rfl⟩ := hs
      obtain ⟨-, hlt, hzero, hbefore⟩ := (m.zeroFrom?_eq_some_iff address 0 wordCount n).1 hn
      rw [Nat.zero_add] at hlt
      exact ⟨n, hlt, rfl, hzero, fun i hi => hbefore i (Nat.zero_le i) hi⟩

end Memory

namespace Machine

variable (m : Machine)

theorem stringCell_eq (i : Nat) :
    m.stringCell i = m.memory.peek (m.processor.register .r0 + BitVec.ofNat 16 i) := by
  rw [stringCell, BitVec.ofNat_add, BitVec.ofNat_toNat, BitVec.setWidth_eq]

/-- The first zero cell of the string of a machine. -/
theorem exists_firstZero (h : ∃ a, m.memory.peek a = 0) :
    ∃ n < wordCount, m.memory.string? (m.processor.register .r0) =
        some ((List.range n).map m.stringCell) ∧
      m.stringCell n = 0 ∧ ∀ i < n, m.stringCell i ≠ 0 := by
  have hcells : m.stringCell =
      fun i => m.memory.peek (m.processor.register .r0 + BitVec.ofNat 16 i) :=
    funext m.stringCell_eq
  rw [hcells]
  exact Memory.exists_firstZero h _

end Machine

/-! ## The routines are the loop -/

namespace Exec

/-- Writes the string at the address in the first register, each word as the bytes given for it, and
pushes it out. -/
def writeString (bytes : Word → List Byte) : Exec Unit := do
  let words ← string (← register .r0)
  onTerminal (·.print (words.flatMap bytes))
  flush

variable {bytes : Word → List Byte} {m m' : Machine}

theorem writeString_apply (bytes : Word → List Byte) (m : Machine) :
    writeString bytes m = match m.memory.string? (m.processor.register .r0) with
      | some words => .ok () (m.withTerminal (m.terminal.print (words.flatMap bytes)).flush)
      | none => .error .endless m := by
  simp only [writeString, bind_apply, register_apply, string_apply]
  cases m.memory.string? (m.processor.register .r0) <;> rfl

/-- Where there is a zero cell, the cells before the first one are written. -/
theorem writeString_of_zero (bytes : Word → List Byte) (h : ∃ a, m.memory.peek a = 0) :
    ∃ n < wordCount, m.stringCell n = 0 ∧ (∀ i < n, m.stringCell i ≠ 0) ∧
      writeString bytes m = .ok () (m.withTerminal
        (m.terminal.print ((List.range n).flatMap fun i => bytes (m.stringCell i))).flush) := by
  obtain ⟨n, hlt, hstring, hzero, hbefore⟩ := m.exists_firstZero h
  refine ⟨n, hlt, hzero, hbefore, ?_⟩
  rw [writeString_apply, hstring]
  simp only [List.flatMap_map]

theorem writeString_of_noZero (h : ∀ a, m.memory.peek a ≠ 0) :
    writeString bytes m = .error .endless m := by
  rw [writeString_apply, (m.memory.string?_eq_none_iff _).2 h]

/-- **Where the writing ends, it has done what the turns up to the first zero word do.** -/
theorem writeString_eq_ok_iff :
    writeString bytes m = .ok () m' ↔ ∃ n s, StringLoop.after bytes m n = some s ∧ s.word = 0 ∧
      m' = s.machine.withTerminal s.machine.terminal.flush := by
  constructor
  · intro h
    by_cases hzero : ∃ a, m.memory.peek a = 0
    · obtain ⟨n, -, hend, hbefore, hrun⟩ := writeString_of_zero bytes hzero
      rw [hrun] at h
      cases h
      exact ⟨n, _, StringLoop.after_eq_some_iff.2 ⟨hbefore, rfl⟩, hend, rfl⟩
    · rw [writeString_of_noZero fun a ha => hzero ⟨a, ha⟩] at h
      cases h
  · rintro ⟨k, s, hs, hword, rfl⟩
    obtain ⟨hbefore', rfl⟩ := StringLoop.after_eq_some_iff.1 hs
    have hend' : m.stringCell k = 0 := hword
    obtain ⟨n, -, hend, hbefore, hrun⟩ := writeString_of_zero bytes ⟨_, hend'⟩
    -- there is only one first zero
    obtain hlt | rfl | hlt := Nat.lt_trichotomy k n
    · exact absurd hend' (hbefore k hlt)
    · exact hrun
    · exact absurd hend (hbefore' n hlt)

/-- **Where there is always another turn, the writing never ends**, and only there. -/
theorem writeString_endless_iff :
    writeString bytes m = .error .endless m ↔
      ∀ n, ∃ s, StringLoop.after bytes m n = some s ∧ s.word ≠ 0 := by
  constructor
  · intro h n
    have hnoZero : ∀ a, m.memory.peek a ≠ 0 := by
      intro a ha
      obtain ⟨n, -, -, -, hrun⟩ := writeString_of_zero bytes ⟨a, ha⟩
      rw [hrun] at h
      cases h
    exact ⟨_, StringLoop.after_eq_some_iff.2 ⟨fun i _ => hnoZero _, rfl⟩, hnoZero _⟩
  · intro h
    refine writeString_of_noZero fun a ha => ?_
    obtain ⟨n, -, hend, -, -⟩ := writeString_of_zero bytes ⟨a, ha⟩
    obtain ⟨s, hs, hword⟩ := h n
    obtain ⟨-, rfl⟩ := StringLoop.after_eq_some_iff.1 hs
    exact hword hend

end Exec

namespace Trap

open Exec

theorem run_puts_eq (m : Machine) : puts.run m = writeString (fun w => [w.lowByte]) m := by
  rw [run_puts, writeString_apply, bind_apply, string_apply]
  cases m.memory.string? (m.processor.register .r0) with
  | none => rfl
  | some words =>
      have hbytes : (words.map fun w => (w.toNat : Int)).map (BitVec.ofInt 8) =
          words.flatMap fun w => [w.lowByte] := by
        rw [List.map_map, ← List.map_eq_flatMap]
        exact List.map_congr_left fun w _ => Word.ofInt_toNat_eq_lowByte w
      simp only [finish_apply, Terminal.writeAll_eq_print, hbytes]

theorem run_putsp_eq (m : Machine) : putsp.run m = writeString Word.packed m := by
  rw [run_putsp, writeString_apply, bind_apply, string_apply]
  cases m.memory.string? (m.processor.register .r0) with
  | none => rfl
  | some words =>
      have hbytes : (words.flatMap unpack).map (BitVec.ofInt 8) = words.flatMap Word.packed := by
        simp only [List.map_flatMap, Word.map_unpack]
      simp only [finish_apply, Terminal.writeAll_eq_print, hbytes]

/-- `routine.WritesString bytes m` : on the machine `m` the routine writes the string at the address
in the first register, each word as the bytes given for it. -/
structure WritesString (routine : Trap) (bytes : Word → List Byte) (m : Machine) : Prop where
  /-- If some cell is zero, the routine ends.  The string is the cells from the address on, before
  the first that is zero; nothing but the terminal has changed, and that has been given their
  bytes. -/
  ends : (∃ a, m.memory.peek a = 0) →
    ∃ n < 65536, m.stringCell n = 0 ∧ (∀ i < n, m.stringCell i ≠ 0) ∧
      ∃ t, routine.run m = .ok () (m.withTerminal t) ∧
        m.terminal.Printed ((List.range n).flatMap fun i => bytes (m.stringCell i)) t
  /-- If no cell is zero, it never ends: after any number of turns it has written the bytes of as
  many cells, nothing else has changed, and there is another turn. -/
  endless : (∀ a, m.memory.peek a ≠ 0) →
    routine.run m = .error .endless m ∧
      ∀ n, ∃ t, StringLoop.after bytes m n =
          some ⟨(m.processor.register .r0).toNat + n, m.withTerminal t⟩ ∧
        m.terminal.Printed ((List.range n).flatMap fun i => bytes (m.stringCell i)) t
  /-- It ends exactly where the loop comes to a zero word, and as the loop does, -/
  loop : ∀ m', routine.run m = .ok () m' ↔
    ∃ n s, StringLoop.after bytes m n = some s ∧ s.word = 0 ∧
      m' = s.machine.withTerminal s.machine.terminal.flush
  /-- and it never does exactly where the loop never does. -/
  loops : routine.run m = .error .endless m ↔
    ∀ n, ∃ s, StringLoop.after bytes m n = some s ∧ s.word ≠ 0

/-- A routine that runs as this does writes the string. -/
theorem writesString_of_run {routine : Trap} {bytes : Word → List Byte} {m : Machine}
    (h : routine.run m = writeString bytes m) : routine.WritesString bytes m where
  ends hzero := by
    obtain ⟨n, hlt, hend, hbefore, hrun⟩ := writeString_of_zero bytes hzero
    exact ⟨n, hlt, hend, hbefore, _, h.trans hrun, (m.terminal.printed_print _).flush⟩
  endless hnoZero :=
    ⟨h.trans (writeString_of_noZero hnoZero), fun _ => ⟨_,
      StringLoop.after_eq_some_iff.2 ⟨fun _ _ => hnoZero _, rfl⟩, m.terminal.printed_print _⟩⟩
  loop m' := by rw [h, writeString_eq_ok_iff]
  loops := by rw [h, writeString_endless_iff]

/-- **What the string routines write.**  The plain one writes the low byte of each word of the
string, the packed one the low byte, zero or not, and after it the high byte unless that is zero. -/
theorem writesString (m : Machine) :
    puts.WritesString (fun w => [w.lowByte]) m ∧
      putsp.WritesString
        (fun w => if w.highByte = 0 then [w.lowByte] else [w.lowByte, w.highByte]) m :=
  ⟨writesString_of_run (run_puts_eq m), writesString_of_run (run_putsp_eq m)⟩

end Trap

end LittleComputer
