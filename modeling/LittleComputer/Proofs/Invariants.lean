import LittleComputer.Proofs.Actions
import LittleComputer.Proofs.Cycle

/-!
# What instructions keep

Every instruction is made of the same few effects: writing a register or a result, writing a cell,
using the terminal, moving the program counter, changing the status.  A property of machines that
each of these keeps (`Machine.Closed`) is therefore kept by whatever a machine does, whether it
succeeds or stops.

* `Exec.Keeps` — an action leaves machines with a property where it found machines with it.
* `Exec.Keeps.of_built` — whatever instructions are made of keeps closed properties.
* `Exec.keeps_cycle` — **cycles keep every closed property**.
* `Machine.closed_atEnd`, `Machine.closed_device`, `Machine.closed_output`,
  `Machine.closed_single` — four closed properties: the end-of-input policy and the device never
  change, output is only ever added to, exactly one flag is set.
* `Exec.reason_of_cycle` — the reasons for which a cycle can stop.
-/

namespace LittleComputer

/-- `P` is kept by each of the effects that instructions are made of. -/
structure Machine.Closed (P : Machine → Prop) : Prop where
  /-- Writing a register. -/
  setRegister : ∀ {m : Machine} (r : Register) (w : Word), P m → P (m.setRegister r w)
  /-- Writing a result with its flags. -/
  setResult : ∀ {m : Machine} (r : Register) (w : Word), P m → P (m.setResult r w)
  /-- Writing a cell. -/
  store : ∀ {m : Machine} (address w : Word), P m → P (m.store address w)
  /-- Asking the terminal for a character. -/
  read : ∀ {m : Machine}, P m → P (m.withTerminal m.terminal.read.2)
  /-- Writing to the terminal. -/
  writeAll : ∀ {m : Machine} (codes : List Int), P m →
    P (m.withTerminal (m.terminal.writeAll codes))
  /-- Pushing out output. -/
  flush : ∀ {m : Machine}, P m → P (m.withTerminal m.terminal.flush)
  /-- Forgetting the codes of the last read and write. -/
  resetCodes : ∀ {m : Machine}, P m → P (m.withTerminal m.terminal.resetCodes)
  /-- Moving the program counter, with another instruction in hand. -/
  move : ∀ {m : Machine} (pc : Word) (ir : Option Int), P m →
    P { m with processor := { m.processor with pc, ir } }
  /-- Changing the status. -/
  setStatus : ∀ {m : Machine} (status : Status), P m →
    P { m with processor := { m.processor with status } }

namespace Exec

variable {α β : Type} {P : Machine → Prop} {x : Exec α} {m m' : Machine}

/-- The machine that an action leaves, whether it succeeds or stops. -/
def left (x : Exec α) (m : Machine) : Machine :=
  match x m with
  | .ok _ m' => m'
  | .error _ m' => m'

theorem left_of_ok {a : α} (h : x m = .ok a m') : left x m = m' := by
  rw [left, h]

theorem left_of_error {e : Stop} (h : x m = .error e m') : left x m = m' := by
  rw [left, h]

/-- `Keeps P x` : where `x` finds a machine with property `P`, it leaves one. -/
def Keeps (P : Machine → Prop) (x : Exec α) : Prop := ∀ m, P m → P (left x m)

/-! ## What actions leave -/

/-- A sequence leaves what its second half leaves, -/
theorem left_bind_of_ok {f : α → Exec β} {a : α} (h : x m = .ok a m') :
    left (x >>= f) m = left (f a) m' := by
  rw [left, bind_apply, h]
  rfl

/-- or, where the first half stops, what that does. -/
theorem left_bind_of_error {f : α → Exec β} {e : Stop} (h : x m = .error e m') :
    left (x >>= f) m = m' := by
  rw [left, bind_apply, h]

theorem left_string (address : Word) (m : Machine) : left (string address) m = m := by
  rw [left, string_apply]
  cases m.memory.string? address <;> rfl

theorem left_readChar (m : Machine) :
    left readChar m = m.withTerminal m.terminal.read.2 := by
  rw [left, readChar_apply]
  rcases m.terminal.read with ⟨result, t⟩
  cases result <;> rfl

/-- Reading the keyboard status register reads the terminal. -/
theorem terminal_left_load {address : Int} (m : Machine)
    (hk : Word.ofInt address = Memory.keyboardStatus) :
    (left (load address) m).terminal = m.terminal.read.2 := by
  rcases h : m.terminal.read with ⟨result, t⟩
  cases result with
  | ok code => rw [left_of_ok (load_keyboard_ok m hk h)]; rfl
  | error e => rw [left_of_error (load_keyboard_error m hk h)]; rfl

/-! ## Actions and cycles -/

theorem Keeps.bind {f : α → Exec β} (hx : Keeps P x) (hf : ∀ a, Keeps P (f a)) :
    Keeps P (x >>= f) := by
  intro m hm
  have hleft := hx m hm
  cases h : x m with
  | ok a m₁ =>
      rw [left_of_ok h] at hleft
      rw [left_bind_of_ok h]
      exact hf a m₁ hleft
  | error e m₁ =>
      rw [left_of_error h] at hleft
      rw [left_bind_of_error h]
      exact hleft

theorem keeps_string (address : Word) : Keeps P (string address) := by
  intro m hm
  rw [left_string]
  exact hm

section Closed

variable (hP : Machine.Closed P)

include hP

theorem keeps_readChar : Keeps P readChar := by
  intro m hm
  rw [left_readChar]
  exact hP.read hm

/-- Through the keyboard registers a read marks the keyboard ready, asks the terminal and, unless
that stops it, writes the character; elsewhere it only looks. -/
theorem keeps_load (address : Int) : Keeps P (load address) := by
  intro m hm
  by_cases hk : Word.ofInt address = Memory.keyboardStatus
  · have hready : P m.markReady := hP.store _ _ hm
    have hread : P (m.markReady.withTerminal m.terminal.read.2) := hP.read hready
    rcases hterminal : m.terminal.read with ⟨result, t⟩
    rw [hterminal] at hread
    cases result with
    | ok code =>
        rw [left_of_ok (load_keyboard_ok m hk hterminal)]
        exact hP.store Memory.keyboardData (BitVec.ofNat 16 code) hread
    | error e =>
        rw [left_of_error (load_keyboard_error m hk hterminal)]
        exact hread
  · rw [left_of_ok (load_of_ne m hk)]
    exact hm

/-- What instructions are made of keeps every closed property. -/
theorem Keeps.of_built (hx : Built x) : Keeps P x := by
  induction hx with
  | pure a => exact fun _ hm => hm
  | bind _ _ ihx ihf => exact ihx.bind ihf
  | fail cause => exact fun _ hm => hm
  | look f => exact fun _ hm => hm
  | string address => exact keeps_string address
  | setRegister r w => exact fun _ hm => hP.setRegister r w hm
  | setResult r w => exact fun _ hm => hP.setResult r w hm
  | move f => exact fun m hm => hP.move (f m.processor).1 (f m.processor).2 hm
  | halt => exact fun _ hm => hP.setStatus .halted hm
  | load address => exact keeps_load hP address
  | store address w => exact fun _ hm => hP.store (Word.ofInt address) w hm
  | readChar => exact keeps_readChar hP
  | write codes => exact fun _ hm => hP.writeAll codes hm
  | flush => exact fun _ hm => hP.flush hm
  | resetCodes => exact fun _ hm => hP.resetCodes hm

theorem keeps_fetch : Keeps P fetch := .of_built hP built_fetch

/-- **Cycles keep every closed property**, completed or not. -/
theorem keeps_cycle (instructions : InstructionSet) : Keeps P (cycle instructions) :=
  .of_built hP (built_cycle instructions)

end Closed

end Exec

/-! ## What reading and writing leave alone -/

namespace Terminal

variable (t : Terminal)

theorem atEnd_read : t.read.2.atEnd = t.atEnd := by
  unfold read
  split
  · rfl
  · dsimp only
    split <;> rfl

theorem device_read : t.read.2.device = t.device := by
  unfold read
  split
  · rfl
  · dsimp only
    split <;> rfl

/-- A read takes the next character, if there is one. -/
theorem pending_read : t.read.2.pending = t.pending.tail := by
  unfold read
  split
  · rename_i hp
    simp [hp]
  · rename_i hp
    dsimp only
    split <;> simp [record, hp]

theorem lastOut_read : t.read.2.lastOut = t.lastOut := by
  unfold read
  split
  · rfl
  · dsimp only
    split <;> rfl

/-- After a read the last code is the one it gave, and none if it stopped. -/
theorem lastIn_read : t.read.2.lastIn = t.read.1.toOption := by
  unfold read
  split
  · rfl
  · dsimp only
    split <;> rfl

theorem device_writeAll (codes : List Int) : (t.writeAll codes).device = t.device := by
  induction codes generalizing t with
  | nil => rfl
  | cons code rest ih => exact ih (t.write code)

theorem output_read : t.read.2.output = t.output := by
  rw [output, output, device_read, written_read]

/-- Writing adds to the output, if that can be asked for. -/
theorem output_prefix_writeAll (codes : List Int) : t.output <+: (t.writeAll codes).output := by
  rw [output, output, device_writeAll]
  cases t.device with
  | buffer =>
      rw [written_writeAll]
      exact List.prefix_append _ _
  | console => exact List.prefix_rfl

theorem output_flush : t.flush.output = t.output := by
  have hdevice : t.flush.device = t.device := rfl
  rw [output, output, hdevice, written_flush]

end Terminal

/-! ## Four closed properties -/

namespace Machine

/-- A terminal never changes what it does at the end of its input. -/
theorem closed_atEnd (policy : EndOfInput) : Closed fun m => m.terminal.atEnd = policy where
  setRegister _ _ hm := hm
  setResult _ _ hm := hm
  store _ _ hm := hm
  read hm := (Terminal.atEnd_read _).trans hm
  writeAll codes hm := (Terminal.input_writeAll _ codes).2.trans hm
  flush hm := hm
  resetCodes hm := hm
  move _ _ hm := hm
  setStatus _ hm := hm

/-- A terminal stays on its device. -/
theorem closed_device (device : Device) : Closed fun m => m.terminal.device = device where
  setRegister _ _ hm := hm
  setResult _ _ hm := hm
  store _ _ hm := hm
  read hm := (Terminal.device_read _).trans hm
  writeAll codes hm := (Terminal.device_writeAll _ codes).trans hm
  flush hm := hm
  resetCodes hm := hm
  move _ _ hm := hm
  setStatus _ hm := hm

/-- What has been written stays written. -/
theorem closed_output (bytes : List Byte) : Closed fun m => bytes <+: m.terminal.output where
  setRegister _ _ hm := hm
  setResult _ _ hm := hm
  store _ _ hm := hm
  read {m} hm := by
    show bytes <+: m.terminal.read.2.output
    rw [Terminal.output_read]
    exact hm
  writeAll codes hm := hm.trans (Terminal.output_prefix_writeAll _ codes)
  flush {m} hm := by
    show bytes <+: m.terminal.flush.output
    rw [Terminal.output_flush]
    exact hm
  resetCodes hm := hm
  move _ _ hm := hm
  setStatus _ hm := hm

end Machine

/-- Exactly one flag is set. -/
def Condition.Single (c : Condition) : Prop := c = positive ∨ c = zero ∨ c = negative

/-- Only results set the flags, and they set one. -/
theorem Machine.closed_single : Closed fun m => m.processor.cond.Single where
  setRegister _ _ hm := hm
  setResult _ _ _ := Condition.ofWord_cases _
  store _ _ hm := hm
  read hm := hm
  writeAll _ hm := hm
  flush hm := hm
  resetCodes hm := hm
  move _ _ hm := hm
  setStatus _ hm := hm

/-! ## Why cycles stop -/

namespace Exec

/-- `Reason instructions m e` : a cycle of the machine `m` can stop with `e`. -/
inductive Reason (instructions : InstructionSet) (m : Machine) : Stop → Prop where
  /-- The input is used up, and that is a fault. -/
  | underflow (policy : m.terminal.atEnd = .underflow) :
      Reason instructions m (.fault .inputUnderflow)
  /-- The input is used up, and the user does not wait for more. -/
  | interrupted (policy : m.terminal.atEnd = .interrupt) : Reason instructions m .interrupted
  /-- The instruction set lacks the opcode. -/
  | badOpcode {op : Opcode} (code : Int) (lacks : instructions op = false) :
      Reason instructions m (.fault (.badOpcode code))
  /-- The machine refuses the instruction. -/
  | unusedOpcode (mnemonic : String) : Reason instructions m (.fault (.unusedOpcode mnemonic))
  /-- No routine has the vector. -/
  | unknownTrapVector (vector : Nat) : Reason instructions m (.fault (.unknownTrapVector vector))
  /-- A string has no end. -/
  | endless : Reason instructions m .endless

variable {instructions : InstructionSet} {m m' : Machine} {e : Stop}

theorem reason_of_read {t t' : Terminal} (hpolicy : t.atEnd = m.terminal.atEnd)
    (h : t.read = (.error e, t')) : Reason instructions m e := by
  obtain ⟨-, ⟨hunderflow, rfl⟩ | ⟨hinterrupt, rfl⟩⟩ := Terminal.read_error_cases h
  · exact .underflow (hpolicy.symm.trans hunderflow)
  · exact .interrupted (hpolicy.symm.trans hinterrupt)

/-- **Cycles stop for one of six reasons.** -/
theorem reason_of_cycle (h : cycle instructions m = .error e m') : Reason instructions m e := by
  obtain ⟨-, t, hread, -⟩ | ⟨w, m₁, hfetch, ⟨hlacks, rfl, -⟩ | ⟨-, hstop⟩⟩ := cycle_error_cases h
  · exact reason_of_read rfl hread
  · exact .badOpcode _ hlacks
  · -- the fetch may have used the terminal, but its policy is the same
    have hpolicy : m₁.resetCodes.terminal.atEnd = m.terminal.atEnd := by
      have hkept := keeps_fetch (Machine.closed_atEnd m.terminal.atEnd) m rfl
      rw [left_of_ok hfetch] at hkept
      exact hkept
    cases hstop with
    | input _ _ hread => exact reason_of_read hpolicy hread
    | keyboard _ hread => exact reason_of_read hpolicy hread
    | unused _ => exact .unusedOpcode _
    | unknownVector _ _ => exact .unknownTrapVector _
    | endless _ _ _ => exact .endless

end Exec

end LittleComputer
