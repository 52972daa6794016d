import LittleComputer.Plain.Execute
import LittleComputer.Proofs.Decoding
import LittleComputer.Proofs.Output
import LittleComputer.Proofs.Ports
import LittleComputer.Proofs.Rendering

/-!
# The plain machine is the machine of words

A plain machine that holds a machine of words does what that does: the same action gives the same,
in plain integers, stops for the same reason, and leaves the one holding the other.  No index
misses and no number is out of range, whatever integers the executors hand around.

* `Machine.Rendered` — a plain machine that holds a machine of words, on a port that shows its
  terminal.
* `Exec.Rendered` — a plain action that does what an action on words does, with
  `Exec.Rendered.bind` for sequences and `Exec.rendered_load`, … for the single actions.
* `Exec.rendered_writeString` — the loops over strings find what the search for their end finds.
* `Instruction.rendered_perform`, `Exec.rendered_cycle` — **instructions and cycles**.
-/

namespace LittleComputer

variable {σ : Type} {R : Port σ → Terminal → Prop}

/-- `m.Rendered R p` : the plain machine `p` holds `m`, and its port stands in the relation `R` to
the terminal of `m`. -/
inductive Machine.Rendered (R : Port σ → Terminal → Prop) (m : Machine) : Plain.Machine σ → Prop
  /-- Everything but the port is written down in plain integers. -/
  | intro {memory : Plain.Memory} {port : Port σ} (hmemory : m.memory.Rendered memory)
      (hport : R port m.terminal) : Rendered R m ⟨m.processor.plain, memory, port⟩

namespace Exec

variable {α β γ δ : Type} {f : β → α} {g : δ → γ}

/-- What a plain action comes to, and what the action on words does. -/
inductive RenderedResult (R : Port σ → Terminal → Prop) (f : β → α) :
    EStateM.Result Stop Machine β → EStateM.Result Break (Plain.Machine σ) α → Prop
  /-- The same value. -/
  | ok (b : β) {m : Machine} {p : Plain.Machine σ} (h : m.Rendered R p) :
      RenderedResult R f (.ok b m) (.ok (f b) p)
  /-- The same stop. -/
  | error (e : Stop) {m : Machine} {p : Plain.Machine σ} (h : m.Rendered R p) :
      RenderedResult R f (.error e m) (.error (.stop e) p)
  /-- No end, whatever the machines look like by then. -/
  | endless (m : Machine) (p : Plain.Machine σ) :
      RenderedResult R f (.error .endless m) (.error (.stop .endless) p)

/-- `Rendered R f y x` : on a plain machine that holds a machine of words, `x` does what `y` does on
that; the value that `y` gives is written down by `f`. -/
def Rendered (R : Port σ → Terminal → Prop) (f : β → α) (y : Exec β) (x : Plain.Exec σ α) : Prop :=
  ∀ m p, m.Rendered R p → RenderedResult R f (y m) (x p)

/-! ## Sequences -/

theorem plain_bind_apply (x : Plain.Exec σ α) (k : α → Plain.Exec σ γ) (p : Plain.Machine σ) :
    (x >>= k) p = match x p with
      | .ok a p => k a p
      | .error e p => .error e p := by
  simp only [bind, EStateM.bind]
  cases x p <;> rfl

theorem rendered_pure (b : β) : Rendered R f (pure b) (pure (f b)) :=
  fun _ _ h => .ok b h

/-- **Sequences do the same if both halves do.** -/
theorem Rendered.bind {y : Exec β} {x : Plain.Exec σ α} {k : β → Exec δ} {l : α → Plain.Exec σ γ}
    (hx : Rendered R f y x) (hk : ∀ b, Rendered R g (k b) (l (f b))) :
    Rendered R g (y >>= k) (x >>= l) := by
  intro m p h
  have hfirst := hx m p h
  rw [bind_apply, plain_bind_apply]
  generalize y m = result at hfirst ⊢
  generalize x p = result' at hfirst ⊢
  cases hfirst with
  | ok b h => exact hk b _ _ h
  | error e h => exact .error e h
  | endless m p => exact .endless m p

/-! ## Registers and cells -/

theorem rendered_look {look : Processor → β} {look' : Plain.Processor → α}
    (h : ∀ p, look' p.plain = f (look p)) :
    Rendered R f (Exec.look look) (Plain.Exec.look look') := by
  rintro m _ ⟨hmemory, hport⟩
  rw [Exec.look, Plain.Exec.look, h]
  exact .ok _ ⟨hmemory, hport⟩

theorem rendered_pc : Rendered R Word.plain pc (Plain.Exec.look (·.pc)) := by
  have hpc : pc = Exec.look (·.pc) := rfl
  rw [hpc]
  exact rendered_look fun _ => rfl

theorem rendered_condition : Rendered R id condition (Plain.Exec.look (·.cond)) := by
  have hcondition : condition = Exec.look (·.cond) := rfl
  rw [hcondition]
  exact rendered_look fun _ => rfl

theorem rendered_onProcessor {change : Processor → Processor}
    {change' : Plain.Processor → Plain.Processor} (h : ∀ p, change' p.plain = (change p).plain) :
    Rendered R id (onProcessor change) (Plain.Exec.onProcessor change') := by
  rintro m _ ⟨hmemory, hport⟩
  rename_i memory port
  show RenderedResult R id _ (.ok () ⟨change' m.processor.plain, memory, port⟩)
  rw [h]
  exact .ok () ⟨hmemory, hport⟩

theorem rendered_register (r : Register) :
    Rendered R Word.plain (register r) (Plain.Exec.register r.val) := by
  rintro m _ ⟨hmemory, hport⟩
  simp only [Plain.Exec.register, Processor.plain_get]
  exact .ok _ ⟨hmemory, hport⟩

theorem rendered_setRegister (r : Register) {value : Int} {w : Word} (h : Word.ofInt value = w) :
    Rendered R id (setRegister r w) (Plain.Exec.setRegister r.val value) := by
  rintro m _ ⟨hmemory, hport⟩
  simp only [Plain.Exec.setRegister, Processor.plain_set, h]
  exact .ok () ⟨hmemory, hport⟩

theorem rendered_setResult (r : Register) {value : Int} {w : Word} (h : Word.ofInt value = w) :
    Rendered R id (setResult r w) (Plain.Exec.setResult r.val value) := by
  rintro m _ ⟨hmemory, hport⟩
  rw [Plain.Exec.setResult, plain_bind_apply]
  simp only [Plain.Exec.setRegister, Plain.Exec.updateFlags, Processor.plain_set,
    Processor.plain_updateFlags, h]
  exact .ok () ⟨hmemory, hport⟩

/-- Looking at a cell. -/
def peek (address : Word) : Exec Word := fun m => .ok (m.memory.peek address) m

theorem rendered_item (address : Word) :
    Rendered R Word.plain (peek address) (Plain.Exec.item address.plain) := by
  rintro m _ ⟨hmemory, hport⟩
  simp only [Plain.Exec.item, hmemory.item]
  exact .ok _ ⟨hmemory, hport⟩

theorem rendered_put (address w : Word) :
    Rendered R id (finish () fun m => m.store address w)
      (Plain.Exec.put address.plain w.plain) := by
  rintro m _ ⟨hmemory, hport⟩
  rename_i memory port
  obtain ⟨cells, hput, hstored⟩ := hmemory.put address w
  obtain ⟨row⟩ := memory
  simp only [Plain.Exec.put, hput]
  exact .ok () ⟨hstored, hport⟩

theorem rendered_store (address : Int) (w : Word) :
    Rendered R id (store address w) (Plain.Exec.store address w.plain) := by
  rw [Plain.Exec.store, Plain.wrap_plain, Plain.wrap_eq]
  exact rendered_put (Word.ofInt address) w

theorem rendered_fail (cause : Fault) :
    Rendered R f (fail cause) (Plain.Exec.fail cause : Plain.Exec σ α) := by
  rintro m _ ⟨hmemory, hport⟩
  exact .error _ ⟨hmemory, hport⟩

/-- The machine that fetches has no instruction in hand. -/
theorem rendered_release {m : Machine} {memory : Plain.Memory} {port : Port σ}
    (hmemory : m.memory.Rendered memory) (hport : R port m.terminal) :
    m.release.Rendered R ⟨{ m.processor.plain with ir := none }, memory, port⟩ :=
  ⟨hmemory, hport⟩

/-- A read of the keyboard status register is four actions in turn. -/
theorem load_of_eq {address : Int} (h : Word.ofInt address = Memory.keyboardStatus) :
    load address =
      (finish () Machine.markReady >>= fun _ => readChar >>= fun code =>
        (finish () fun m => m.store Memory.keyboardData (BitVec.ofNat 16 code)) >>= fun _ =>
          peek Memory.keyboardStatus) := by
  funext m
  rw [bind_apply, finish_apply]
  dsimp only
  rw [bind_apply, readChar_apply]
  rcases hread : m.terminal.read with ⟨result, t⟩
  have hread' : m.markReady.terminal.read = (result, t) := hread
  rw [hread']
  cases result with
  | error e => exact load_keyboard_error m h hread
  | ok code =>
      -- the character goes to another cell, so the keyboard is still found ready
      have hready : (m.receive code t).memory.peek Memory.keyboardStatus =
          Memory.keyboardReady := by
        have hne : Memory.keyboardData ≠ Memory.keyboardStatus := by decide
        exact (Memory.peek_poke_of_ne _ _ hne).trans (Memory.peek_poke_self _ _ _)
      rw [load_keyboard_ok m h hread, ← hready]
      rfl

/-! ## The port -/

section Ports

variable [Provider σ] (sim : Port.Simulation R)

include sim

theorem rendered_readChar : Rendered R id readChar Plain.Exec.readChar := by
  rintro m _ ⟨hmemory, hport⟩
  rename_i port
  obtain ⟨hsame, hnext⟩ := sim.read hport
  rw [readChar_apply, Plain.Exec.readChar]
  rcases hread : m.terminal.read with ⟨result, t⟩
  rcases hread' : port.readChar with ⟨result', port'⟩
  rw [hread, hread'] at hsame hnext
  dsimp only at hsame hnext ⊢
  subst hsame
  cases result with
  | ok code => exact .ok code ⟨hmemory, hnext⟩
  | error e => exact .error e ⟨hmemory, hnext⟩

theorem rendered_writeChar (code : Int) :
    Rendered R id (write [code]) (Plain.Exec.writeChar code) := by
  rintro m _ ⟨hmemory, hport⟩
  rename_i port
  obtain ⟨hok, hnext⟩ := sim.write hport code
  rcases hwrite : port.writeChar code with ⟨result, port'⟩
  rw [hwrite] at hok hnext
  dsimp only at hok hnext
  subst hok
  simp only [Plain.Exec.writeChar, hwrite]
  exact .ok () ⟨hmemory, hnext⟩

theorem rendered_flush : Rendered R id flush Plain.Exec.flush := by
  rintro m _ ⟨hmemory, hport⟩
  exact .ok () ⟨hmemory, sim.flush hport⟩

theorem rendered_resetCodes :
    Rendered R id (onTerminal Terminal.resetCodes) Plain.Exec.resetCodes := by
  rintro m _ ⟨hmemory, hport⟩
  exact .ok () ⟨hmemory, sim.resetCodes hport⟩

/-- Words are read, those behind the keyboard registers included. -/
theorem rendered_load (address : Int) :
    Rendered R Word.plain (load address) (Plain.Exec.load address) := by
  unfold Plain.Exec.load
  by_cases h : Word.ofInt address = Memory.keyboardStatus
  · have hwrap : Plain.wrap address = 0xFE00 := by
      rw [Plain.wrap_eq, h]
      rfl
    rw [load_of_eq h, hwrap, if_pos rfl]
    have hready := rendered_put (R := R) Memory.keyboardStatus Memory.keyboardReady
    refine hready.bind fun _ => (rendered_readChar sim).bind fun code => ?_
    have hdata := rendered_put (R := R) Memory.keyboardData (BitVec.ofNat 16 code)
    have hcode : Plain.wrap (id code : Nat) = Word.plain (BitVec.ofNat 16 code) :=
      Plain.wrap_eq code
    rw [hcode]
    exact hdata.bind fun _ => rendered_item Memory.keyboardStatus
  · have hwrap : Plain.wrap address ≠ 0xFE00 := by
      intro heq
      apply h
      rw [Plain.wrap_eq] at heq
      apply BitVec.eq_of_toNat_eq
      exact Int.ofNat_inj.1 heq
    have hload : load address = peek (Word.ofInt address) := by
      funext m
      exact load_of_ne m h
    rw [if_neg hwrap, hload, Plain.wrap_eq]
    exact rendered_item (Word.ofInt address)

end Ports

/-! ## Strings -/

section Strings

variable {each : Int → Plain.Exec σ Unit} {codes : Word → List Int}
  (heach : ∀ w, Rendered R id (write (codes w)) (each w.plain))

include heach

/-- A word of a string is written, and nothing but the terminal changes. -/
theorem each_apply (w : Word) {m : Machine} {p : Plain.Machine σ} (hm : m.Rendered R p) :
    ∃ p', each w.plain p = .ok () p' ∧
      (m.withTerminal (m.terminal.writeAll (codes w))).Rendered R p' := by
  have hresult := heach w m p hm
  rw [write_apply] at hresult
  generalize each w.plain p = result at hresult ⊢
  cases hresult with
  | ok _ h => exact ⟨_, rfl, h⟩

omit heach in
/-- The next word decides whether the loop goes on. -/
theorem writeString_succ (each : Int → Plain.Exec σ Unit) (fuel : Nat) (address : Int)
    {m : Machine} {p : Plain.Machine σ} (hm : m.Rendered R p) :
    Plain.writeString each (fuel + 1) address p =
      if m.memory.peek (Word.ofInt address) = 0 then .ok () p
      else (each (m.memory.peek (Word.ofInt address)).plain >>= fun _ =>
        Plain.writeString each fuel (address + 1)) p := by
  obtain ⟨hmemory, hport⟩ := hm
  generalize hw : m.memory.peek (Word.ofInt address) = w
  have hitem := hmemory.item (Word.ofInt address)
  rw [hw] at hitem
  have hzero : w.plain = 0 ↔ w = 0 := by
    rw [← BitVec.toNat_inj]
    exact Int.natCast_eq_zero
  rw [Plain.writeString, plain_bind_apply, Plain.Exec.peek, Plain.wrap_eq]
  simp only [Plain.Exec.item, hitem, hzero]
  by_cases h : w = 0
  · rw [if_pos h, if_pos h]
    rfl
  · rw [if_neg h, if_neg h]

/-- The loop writes the string at an address, if it may look at all of its cells and the zero after
them. -/
theorem writeString_of_stringAt {m : Machine} {a : Word} {words : List Word}
    (hstring : m.memory.StringAt a words) {fuel : Nat} (hfuel : words.length < fuel)
    {address : Int} (ha : Word.ofInt address = a) {p : Plain.Machine σ} (hm : m.Rendered R p) :
    ∃ p', Plain.writeString each fuel address p = .ok () p' ∧
      (m.withTerminal (m.terminal.writeAll (words.flatMap codes))).Rendered R p' := by
  generalize hmemory : m.memory = memory at hstring
  induction hstring generalizing m fuel address p with
  | @nil a hzero =>
      obtain ⟨fuel, rfl⟩ := Nat.exists_eq_add_of_lt hfuel
      subst ha hmemory
      rw [writeString_succ each _ address hm, if_pos hzero]
      exact ⟨p, rfl, hm⟩
  | @cons a words hnonzero _ ih =>
      obtain ⟨fuel, rfl⟩ := Nat.exists_eq_add_of_lt hfuel
      subst ha hmemory
      rw [writeString_succ each _ address hm, if_neg hnonzero, plain_bind_apply]
      obtain ⟨p₁, heach₁, hm₁⟩ := each_apply heach (m.memory.peek (Word.ofInt address)) hm
      rw [heach₁]
      have hlength :
          words.length < (m.memory.peek (Word.ofInt address) :: words).length + fuel := by
        rw [List.length_cons]
        omega
      obtain ⟨p', hrest, hm'⟩ := ih hlength (Word.ofInt_add_one address) hm₁ rfl
      refine ⟨p', hrest, ?_⟩
      rw [List.flatMap_cons]
      have happend : m.terminal.writeAll (codes (m.memory.peek (Word.ofInt address)) ++
            words.flatMap codes) =
          (m.terminal.writeAll (codes (m.memory.peek (Word.ofInt address)))).writeAll
            (words.flatMap codes) := List.foldl_append
      rw [happend]
      exact hm'

/-- Where no cell is zero, the loop finds no end, however many cells it may look at. -/
theorem writeString_of_nonzero {m : Machine} (hnonzero : ∀ a, m.memory.peek a ≠ 0) (fuel : Nat)
    (address : Int) {p : Plain.Machine σ} (hm : m.Rendered R p) :
    ∃ p', Plain.writeString each fuel address p = .error (.stop .endless) p' := by
  induction fuel generalizing m address p with
  | zero => exact ⟨p, rfl⟩
  | succ fuel ih =>
      rw [writeString_succ each fuel address hm, if_neg (hnonzero _), plain_bind_apply]
      obtain ⟨p₁, heach₁, hm₁⟩ := each_apply heach (m.memory.peek (Word.ofInt address)) hm
      rw [heach₁]
      -- writing leaves the cells alone
      have hnonzero₁ : ∀ a, (m.withTerminal (m.terminal.writeAll
          (codes (m.memory.peek (Word.ofInt address))))).memory.peek a ≠ 0 := hnonzero
      exact ih hnonzero₁ (address + 1) hm₁

/-- **A round of memory is enough**: the loop writes the string that the search for its end finds,
and it never ends where there is none. -/
theorem rendered_writeString (address : Word) :
    Rendered R id (string address >>= fun words => write (words.flatMap codes))
      (Plain.writeString each wordCount address.plain) := by
  intro m p hm
  rw [bind_apply, string_apply]
  cases hstring : m.memory.string? address with
  | none =>
      have hnonzero := (m.memory.string?_eq_none_iff address).1 hstring
      obtain ⟨p', hp⟩ := writeString_of_nonzero heach hnonzero wordCount address.plain hm
      rw [hp]
      exact .endless m p'
  | some words =>
      have hlength : words.length < wordCount := by
        rw [Memory.string?, Option.map_eq_some_iff] at hstring
        obtain ⟨n, hn, rfl⟩ := hstring
        obtain ⟨-, hlt, -⟩ := (m.memory.zeroFrom?_eq_some_iff address 0 wordCount n).1 hn
        rw [List.length_map, List.length_range]
        omega
      obtain ⟨p', hp, hm'⟩ := writeString_of_stringAt heach (Memory.stringAt_of_string? hstring)
        hlength address.ofInt_toNat hm
      have hplain : Plain.writeString each wordCount address.plain p = .ok () p' := hp
      rw [hplain]
      exact .ok () hm'

end Strings

end Exec

/-! ## Operands -/

namespace Instruction

variable (i : Instruction)

/-- Widths that instructions have are widths of fields. -/
theorem rendered_extended {width : Int} (h : 1 ≤ width) :
    (Plain.Exec.extended i width : Plain.Exec σ Int) = pure (i.extended width.toNat) := by
  have hwidth : signExtend? (field i.word 0 width.toNat) width = .ok (i.extended width.toNat) := by
    rw [signExtend?, if_pos h]
    rfl
  rw [Plain.Exec.extended, hwidth]

theorem plain_imm5 : (Word.ofInt i.imm5).plain = i.imm5 := by
  have hshort : 5 ≤ 16 := by decide
  obtain ⟨hlow, hhigh⟩ := i.extended_bounds hshort
  rw [Word.plain, Word.cast_toNat_ofInt, imm5]
  omega

theorem rendered_operand : Exec.Rendered R Word.plain i.operand (Plain.Exec.operand i) := by
  unfold operand Plain.Exec.operand
  split
  · have himmediate : Exec.Rendered R Word.plain (pure (Word.ofInt i.imm5))
        (pure (Word.ofInt i.imm5).plain) := Exec.rendered_pure _
    rw [plain_imm5] at himmediate
    rw [rendered_extended i (by decide)]
    exact himmediate
  · exact Exec.rendered_register i.sr2

theorem rendered_pcRelative {width : Int} (h : 1 ≤ width) :
    Exec.Rendered R id (pcRelative (i.extended width.toNat)) (Plain.Exec.pcRelative i width) := by
  refine Exec.rendered_pc.bind fun pc => ?_
  rw [rendered_extended i h]
  exact Exec.rendered_pure _

theorem rendered_baseRelative :
    Exec.Rendered R id (i.baseRelative i.offset6) (Plain.Exec.baseRelative i) := by
  refine (Exec.rendered_register i.baseR).bind fun base => ?_
  rw [rendered_extended i (by decide)]
  exact Exec.rendered_pure _

/-- A register is an address without an offset. -/
theorem rendered_target :
    Exec.Rendered R id (i.baseRelative 0) (Plain.Exec.register (Plain.Exec.index i 6)) := by
  have htarget : (Plain.Exec.register (Plain.Exec.index i 6) : Plain.Exec σ Int) =
      Plain.Exec.register (Plain.Exec.index i 6) >>= fun w => pure (w + 0) := by
    simp only [Int.add_zero, bind_pure]
  rw [htarget]
  exact (Exec.rendered_register i.baseR).bind fun _ => Exec.rendered_pure _

end Instruction

/-! ## Trap routines -/

section Machines

variable [Provider σ] (sim : Port.Simulation R)

include sim

theorem Trap.rendered_writePacked (w : Word) :
    Exec.Rendered R id (Exec.write (unpack w)) (Plain.writePacked w.plain) := by
  have hlow : w.plain % 256 = ((w.toNat % 256 : Nat) : Int) := rfl
  have hhigh : w.plain / 256 = ((w.toNat / 256 : Nat) : Int) := rfl
  unfold unpack Plain.writePacked
  rw [hlow, hhigh]
  by_cases hzero : w.toNat / 256 = 0
  · rw [if_pos hzero, if_neg (by simp [hzero])]
    have hone := (Exec.rendered_writeChar sim ((w.toNat % 256 : Nat) : Int)).bind
      fun _ => Exec.rendered_pure (f := id) ()
    exact hone
  · rw [if_neg hzero, if_pos (by exact_mod_cast hzero)]
    have htwo : Exec.Rendered R id
        (Exec.write [((w.toNat % 256 : Nat) : Int)] >>= fun _ =>
          Exec.write [((w.toNat / 256 : Nat) : Int)])
        (Plain.Exec.writeChar (w.toNat % 256 : Nat) >>= fun _ =>
          Plain.Exec.writeChar (w.toNat / 256 : Nat)) :=
      (Exec.rendered_writeChar sim _).bind fun _ => Exec.rendered_writeChar sim _
    exact htwo

/-- A string routine writes each word of the string and pushes all of it out. -/
theorem Trap.rendered_string {each : Int → Plain.Exec σ Unit} {codes : Word → List Int}
    (heach : ∀ w, Exec.Rendered R id (Exec.write (codes w)) (each w.plain)) :
    Exec.Rendered R id
      (Exec.register .r0 >>= fun address => Exec.string address >>= fun words =>
        Exec.write (words.flatMap codes) >>= fun _ => Exec.flush)
      (Plain.Exec.register 0 >>= fun address =>
        Plain.writeString each wordCount address >>= fun _ => Plain.Exec.flush) := by
  refine (Exec.rendered_register .r0).bind fun address => ?_
  rw [← bind_assoc]
  exact (Exec.rendered_writeString heach address).bind fun _ => Exec.rendered_flush sim

/-- **Trap routines do the same.** -/
theorem Trap.rendered_run (routine : Trap) :
    Exec.Rendered R id routine.run (Plain.runTrap routine) := by
  have hcode : ∀ code : Nat, Word.ofInt code = BitVec.ofNat 16 code := fun _ => rfl
  cases routine with
  | getc =>
      exact (Exec.rendered_readChar sim).bind fun code =>
        (Exec.rendered_setRegister .r0 (hcode code)).bind fun _ => Exec.rendered_flush sim
  | out =>
      exact (Exec.rendered_register .r0).bind fun w => Exec.rendered_writeChar sim w.plain
  | puts =>
      have hcodes : ∀ words : List Word, words.map (fun w => (w.toNat : Int)) =
          words.flatMap fun w => [w.plain] := fun words => List.map_eq_flatMap
      simp only [run, hcodes]
      exact rendered_string sim fun w => Exec.rendered_writeChar sim w.plain
  | readEcho =>
      exact (Exec.rendered_readChar sim).bind fun code =>
        (Exec.rendered_writeChar sim code).bind fun _ =>
          Exec.rendered_setRegister .r0 (hcode code)
  | putsp => exact rendered_string sim (rendered_writePacked sim)
  | halt =>
      exact (Exec.rendered_flush sim).bind fun _ => Exec.rendered_onProcessor fun _ => rfl

/-! ## Instructions -/

namespace Instruction

variable (i : Instruction)

/-- **Instructions do the same.** -/
theorem rendered_perform (op : Opcode) :
    Exec.Rendered R id (i.perform op) (Plain.Exec.perform i op) := by
  have hnine : (1 : Int) ≤ 9 := by decide
  have heleven : (1 : Int) ≤ 11 := by decide
  cases op with
  | add =>
      refine (rendered_operand i).bind fun b => (Exec.rendered_register i.sr1).bind fun a =>
        (Exec.rendered_setResult i.dr ?_).bind fun _ => Exec.rendered_pure none
      rw [Word.ofInt_add]
      exact congr (congrArg HAdd.hAdd a.ofInt_toNat) b.ofInt_toNat
  | and =>
      refine (rendered_operand i).bind fun b => (Exec.rendered_register i.sr1).bind fun a =>
        (Exec.rendered_setResult i.dr ?_).bind fun _ => Exec.rendered_pure none
      rw [Plain.common_plain]
      exact Word.ofInt_toNat _
  | not =>
      exact (Exec.rendered_register i.sr1).bind fun a =>
        (Exec.rendered_setResult i.dr (Plain.ofInt_not a)).bind fun _ => Exec.rendered_pure none
  | br =>
      refine Exec.rendered_condition.bind fun c => ?_
      rw [id]
      split
      · exact Exec.rendered_pure none
      · exact (rendered_pcRelative i hnine).bind fun _ => Exec.rendered_pure _
  | jmp => exact (Exec.rendered_register i.baseR).bind fun _ => Exec.rendered_pure _
  | jsr =>
      rw [perform, Plain.Exec.perform]
      cases i.longFlag with
      | true =>
          exact (rendered_pcRelative i heleven).bind fun _ => Exec.rendered_pc.bind fun pc =>
            (Exec.rendered_setRegister .r7 pc.ofInt_toNat).bind fun _ => Exec.rendered_pure _
      | false =>
          refine (rendered_target i).bind fun _ => Exec.rendered_pc.bind fun pc =>
            (Exec.rendered_setRegister .r7 pc.ofInt_toNat).bind fun _ => Exec.rendered_pure _
  | ld =>
      exact (rendered_pcRelative i hnine).bind fun _ => (Exec.rendered_load sim _).bind fun w =>
        (Exec.rendered_setResult i.dr w.ofInt_toNat).bind fun _ => Exec.rendered_pure none
  | ldi =>
      exact (rendered_pcRelative i hnine).bind fun _ => (Exec.rendered_load sim _).bind fun _ =>
        (Exec.rendered_load sim _).bind fun w =>
          (Exec.rendered_setResult i.dr w.ofInt_toNat).bind fun _ => Exec.rendered_pure none
  | ldr =>
      exact (rendered_baseRelative i).bind fun _ => (Exec.rendered_load sim _).bind fun w =>
        (Exec.rendered_setResult i.dr w.ofInt_toNat).bind fun _ => Exec.rendered_pure none
  | lea =>
      exact (rendered_pcRelative i hnine).bind fun _ =>
        (Exec.rendered_setResult i.dr rfl).bind fun _ => Exec.rendered_pure none
  | st =>
      exact (rendered_pcRelative i hnine).bind fun _ => (Exec.rendered_register i.sr).bind fun _ =>
        (Exec.rendered_store _ _).bind fun _ => Exec.rendered_pure none
  | sti =>
      exact (rendered_pcRelative i hnine).bind fun _ => (Exec.rendered_load sim _).bind fun _ =>
        (Exec.rendered_register i.sr).bind fun _ => (Exec.rendered_store _ _).bind fun _ =>
          Exec.rendered_pure none
  | str =>
      exact (rendered_baseRelative i).bind fun _ => (Exec.rendered_register i.sr).bind fun _ =>
        (Exec.rendered_store _ _).bind fun _ => Exec.rendered_pure none
  | rti | res => exact Exec.rendered_fail _
  | trap =>
      rw [perform, Plain.Exec.perform]
      cases Trap.ofVector? i.trapVector with
      | some routine => exact (Trap.rendered_run sim routine).bind fun _ => Exec.rendered_pure none
      | none => exact (Exec.rendered_fail (f := id) _).bind fun _ => Exec.rendered_pure none

theorem rendered_execute (instructions : InstructionSet) :
    Exec.Rendered R id (i.execute instructions) (Plain.Exec.execute instructions i) := by
  unfold execute Plain.Exec.execute
  cases Opcode.ofCode? i.opcode with
  | none => exact Exec.rendered_fail _
  | some op =>
      dsimp only
      split
      · exact rendered_perform sim i op
      · exact Exec.rendered_fail _

end Instruction

/-! ## Cycles -/

namespace Exec

/-- **Fetches do the same**: reading the word does not move the program counter. -/
theorem rendered_fetch : Rendered R Word.plain fetch Plain.Exec.fetch := by
  rintro m _ ⟨hmemory, hport⟩
  rename_i memory port
  have hplain : Plain.Exec.fetch ⟨m.processor.plain, memory, port⟩ =
      (Plain.Exec.load m.processor.pc.plain >>= fun word =>
        Plain.Exec.onProcessor (fun p => { p.jump (p.pc + 1) with ir := some word }) >>=
          fun _ => pure word) ⟨{ m.processor.plain with ir := none }, memory, port⟩ := rfl
  have hrelease := rendered_release hmemory hport
  generalize (⟨{ m.processor.plain with ir := none }, memory, port⟩ : Plain.Machine σ) = p
    at hplain hrelease
  have hload : RenderedResult R Word.plain (load m.processor.pc.toNat m.release)
      (Plain.Exec.load m.processor.pc.plain p) :=
    rendered_load sim m.processor.pc.plain _ _ hrelease
  rw [hplain, fetch_apply, bind_apply, plain_bind_apply]
  generalize Plain.Exec.load m.processor.pc.plain p = result at hload ⊢
  rcases hfetched : load m.processor.pc.toNat m.release with ⟨w, m'⟩ | ⟨e, m'⟩
  · rw [hfetched] at hload
    have hsame : m'.processor = m.release.processor := processor_load hfetched
    cases hload with
    | ok _ h =>
        obtain ⟨hmemory', hport'⟩ := h
        rename_i memory' port'
        have hpc : m'.processor.plain.pc = m.processor.pc.toNat := by
          rw [hsame]
          rfl
        have hprocessor : { m'.processor.plain.jump (m'.processor.plain.pc + 1) with
              ir := some w.plain } =
            Processor.plain { m'.processor.jump (m.processor.pc.toNat + 1) with
              ir := some w.plain } := by
          rw [hpc, Processor.plain_jump]
          rfl
        show RenderedResult R Word.plain _ (.ok w.plain
          ⟨{ m'.processor.plain.jump (m'.processor.plain.pc + 1) with ir := some w.plain },
            memory', port'⟩)
        rw [hprocessor]
        exact .ok w ⟨hmemory', hport'⟩
  · rw [hfetched] at hload
    cases hload with
    | error _ h => exact .error e h
    | endless _ p' => exact .endless m' p'

/-- **Cycles do the same.** -/
theorem rendered_cycle (instructions : InstructionSet) :
    Rendered R Word.plain (cycle instructions) (Plain.Exec.cycle instructions) := by
  refine (rendered_fetch sim).bind fun w => (rendered_resetCodes sim).bind fun _ => ?_
  rw [executeAndJump, bind_assoc]
  refine ((decode w.toNat).rendered_execute sim instructions).bind fun target => ?_
  cases target with
  | none => exact rendered_pure w
  | some target =>
      have hjump : Rendered R Word.plain (onProcessor (·.jump target) >>= fun _ => pure w)
          (Plain.Exec.onProcessor (·.jump target) >>= fun _ => pure w.plain) :=
        (rendered_onProcessor fun p => p.plain_jump target).bind fun _ => rendered_pure w
      exact hjump

end Exec

end Machines

end LittleComputer
