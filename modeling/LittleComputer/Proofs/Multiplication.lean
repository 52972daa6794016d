import LittleComputer.Proofs.Programs

/-!
# Multiplication by repeated addition

A program of seven words adds its first number as often as it takes to count the second one down
until it is no longer positive.  The count is a signed number.  From `0x8000`, which is negative,
the first step down leads to the largest positive number, so the loop goes through all of them.

* `Machine.Multiplies` — the machine is at a word of the program, with these values in its
  registers.
* `Machine.Multiplies.begin`, `Machine.Multiplies.round`, `Machine.Multiplies.rounds` — what comes
  before the loop, one round of it, and all of them.
* `run_multiplication` — **the program multiplies**, and what it does with numbers that are too
  large.
-/

namespace LittleComputer

/-- The program with its two factors. -/
def Image.multiplication (a b : Word) : Image :=
  ⟨0x3000, [0x54A0, 0x2005, 0x2205, 0x1480, 0x127F, 0x03FD, 0xF025, a.toNat, b.toNat]⟩

/-- The same as a file. -/
def Program.multiplication (a b : Word) : Program :=
  .bytes (Image.encode 0x3000 [0x54A0, 0x2005, 0x2205, 0x1480, 0x127F, 0x03FD, 0xF025, a, b])

theorem Program.image?_multiplication (a b : Word) :
    (Program.multiplication a b).image? = some (.multiplication a b) :=
  Program.image?_encode (Nat.le_of_ble_eq_true rfl)

/-- The flag of a positive result is that of the words from one to `0x7FFF`. -/
theorem Condition.ofWord_eq_positive_iff (w : Word) :
    ofWord w = positive ↔ 0 < w.toNat ∧ w.toNat < 0x8000 := by
  have hsign : w.msb = true ↔ 0x8000 ≤ w.toNat := by simp [BitVec.msb_eq_decide]
  have hzero : w = 0 ↔ w.toNat = 0 := BitVec.toNat_inj.symm
  unfold ofWord
  by_cases hnegative : 0x8000 ≤ w.toNat
  · rw [if_pos (hsign.2 hnegative)]
    exact iff_of_false (by decide) (by omega)
  · rw [if_neg (mt hsign.1 hnegative)]
    by_cases hnone : w.toNat = 0
    · rw [if_pos (hzero.2 hnone)]
      exact iff_of_false (by decide) (by omega)
    · rw [if_neg (mt hzero.1 hnone)]
      exact iff_of_true rfl (by omega)

namespace Machine

/-- `m.Multiplies a b i counter sum` : the machine has come to the word with index `i` of the
program that multiplies `a` by `b`, and in its registers are these values. -/
structure Multiplies (m : Machine) (a b : Word) (i : Nat) (counter sum : Word) : Prop where
  /-- The machine is at the word. -/
  place : m.At (.multiplication a b) i
  /-- The first factor is in the first register, -/
  factor : m.processor.register 0 = a
  /-- what is left of the second one in the next, -/
  counter : m.processor.register 1 = counter
  /-- and the sum so far in the third. -/
  sum : m.processor.register 2 = sum

namespace Multiplies

variable {instructions : InstructionSet} {m : Machine} {a b counter sum : Word} {i : Nat}

/-! ## Before the loop -/

/-- The sum is cleared, -/
theorem clear (h : m.At (.multiplication a b) 0) (hset : instructions .and = true) :
    ∃ m', m.Steps instructions 1 m' ∧ m'.At (.multiplication a b) 1 ∧ m.Computes 2 0 m' := by
  have hperform := Instruction.perform_and (decode (0x54A0 : Word).toNat)
    (m.advance 0x54A0).resetCodes
  have hzero : ∀ p, (decode (0x54A0 : Word).toNat).operandOf p = 0#16 := fun _ => rfl
  rw [hzero, BitVec.and_zero] at hperform
  exact h.compute (Image.ordinary rfl (by decide)) rfl (by decide) hset hperform

/-- and the factors are loaded. -/
theorem begin (h : m.At (.multiplication a b) 0) (hset : ∀ op, instructions op = true) :
    ∃ m', m.Steps instructions 3 m' ∧ m'.Multiplies a b 3 b 0 := by
  obtain ⟨m₁, hstep₁, hat₁, hclear⟩ := clear h (hset .and)
  obtain ⟨m₂, hstep₂, hat₂, hfirst⟩ :=
    hat₁.ld (j := 7) (Image.ordinary rfl (by decide)) rfl (by decide) (hset .ld) rfl
      (Image.ordinary rfl (by decide)) (congrArg some (Word.ofInt_toNat a))
  obtain ⟨m₃, hstep₃, hat₃, hsecond⟩ :=
    hat₂.ld (j := 8) (Image.ordinary rfl (by decide)) rfl (by decide) (hset .ld) rfl
      (Image.ordinary rfl (by decide)) (congrArg some (Word.ofInt_toNat b))
  refine ⟨m₃, (hstep₁.trans hstep₂).trans hstep₃, hat₃, ?_, hsecond.result, ?_⟩
  · rw [hsecond.others 0 (by decide)]
    exact hfirst.result
  · rw [hsecond.others 2 (by decide), hfirst.others 2 (by decide)]
    exact hclear.result

/-! ## The loop -/

/-- The first factor is added, -/
theorem add (h : m.Multiplies a b 3 counter sum) (hset : instructions .add = true) :
    ∃ m', m.Steps instructions 1 m' ∧ m'.Multiplies a b 4 counter (sum + a) := by
  have hperform := Instruction.perform_add (decode (0x1480 : Word).toNat)
    (m.advance 0x1480).resetCodes
  obtain ⟨m', hstep, hat, hadded⟩ :=
    h.place.compute (Image.ordinary rfl (by decide)) rfl (by decide) hset hperform
  refine ⟨m', hstep, hat, ?_, ?_, ?_⟩
  · rw [hadded.others 0 (by decide)]
    exact h.factor
  · rw [hadded.others 1 (by decide)]
    exact h.counter
  · refine hadded.result.trans ?_
    rw [← h.sum, ← h.factor]
    rfl

/-- the count goes down, -/
theorem count (h : m.Multiplies a b 4 counter sum) (hset : instructions .add = true) :
    ∃ m', m.Steps instructions 1 m' ∧ m'.Multiplies a b 5 (counter - 1) sum ∧
      m'.processor.cond = .ofWord (counter - 1) := by
  have hperform := Instruction.perform_add (decode (0x127F : Word).toNat)
    (m.advance 0x127F).resetCodes
  obtain ⟨m', hstep, hat, hcounted⟩ :=
    h.place.compute (Image.ordinary rfl (by decide)) rfl (by decide) hset hperform
  have hvalue : m.processor.register 1 + 0xFFFF = counter - 1 := by
    rw [h.counter, BitVec.sub_eq_add_neg]
    rfl
  refine ⟨m', hstep, ⟨hat, ?_, hcounted.result.trans hvalue, ?_⟩, ?_⟩
  · rw [hcounted.others 0 (by decide)]
    exact h.factor
  · rw [hcounted.others 2 (by decide)]
    exact h.sum
  · rw [← hvalue]
    exact hcounted.cond

/-- and there is another round as long as it is positive. -/
theorem br (h : m.Multiplies a b 5 counter sum) (hset : instructions .br = true)
    (hcond : m.processor.cond = .ofWord counter) :
    ∃ m', m.Steps instructions 1 m' ∧
      m'.Multiplies a b (if 0 < counter.toNat ∧ counter.toNat < 0x8000 then 3 else 6) counter sum ∧
      m'.processor.cond = .ofWord counter := by
  have htarget : Word.ofInt ((0x3006 : Word).toNat + (decode (0x03FD : Word).toNat).pcOffset9) =
      0x3003 := by decide
  obtain ⟨m', hstep, hidles, hat⟩ :=
    h.place.branch (w := 0x03FD) (j := 3) (Image.ordinary rfl (by decide)) rfl (by decide) hset
      htarget
  have hmask : (decode (0x03FD : Word).toNat).nzp &&& m.processor.cond = 0 ↔
      ¬ (0 < counter.toNat ∧ counter.toNat < 0x8000) := by
    rw [hcond, ← Condition.ofWord_eq_positive_iff]
    obtain hsign | hsign | hsign := Condition.ofWord_cases counter <;> rw [hsign] <;> decide
  refine ⟨m', hstep, ⟨?_, ?_, ?_, ?_⟩, hidles.cond.trans hcond⟩
  · by_cases hmore : 0 < counter.toNat ∧ counter.toNat < 0x8000
    · rw [if_pos hmore]
      rwa [if_neg (mt hmask.1 (not_not_intro hmore))] at hat
    · rw [if_neg hmore]
      rwa [if_pos (hmask.2 hmore)] at hat
  · rw [Processor.register, hidles.registers]
    exact h.factor
  · rw [Processor.register, hidles.registers]
    exact h.counter
  · rw [Processor.register, hidles.registers]
    exact h.sum

/-- **One round** adds once and counts once. -/
theorem round (h : m.Multiplies a b 3 counter sum) (hset : ∀ op, instructions op = true) :
    ∃ m', m.Steps instructions 3 m' ∧
      m'.Multiplies a b
        (if 0 < (counter - 1).toNat ∧ (counter - 1).toNat < 0x8000 then 3 else 6)
        (counter - 1) (sum + a) ∧
      m'.processor.cond = .ofWord (counter - 1) := by
  obtain ⟨m₁, hstep₁, h₁⟩ := h.add (hset .add)
  obtain ⟨m₂, hstep₂, h₂, hcond₂⟩ := h₁.count (hset .add)
  obtain ⟨m₃, hstep₃, h₃⟩ := h₂.br (hset .br) hcond₂
  exact ⟨m₃, (hstep₁.trans hstep₂).trans hstep₃, h₃⟩

/-- **All rounds**: a count from one to `0x8000` goes down to zero. -/
theorem rounds {n : Nat} (h : m.Multiplies a b 3 counter sum)
    (hset : ∀ op, instructions op = true) (hcounter : counter.toNat = n + 1) (hn : n < 0x8000) :
    ∃ m', m.Steps instructions (3 * (n + 1)) m' ∧ m'.Multiplies a b 6 0 (sum + a * counter) ∧
      m'.processor.cond = .zero := by
  induction n generalizing m counter sum with
  | zero =>
      obtain ⟨m₁, hround, hend, hcond⟩ := h.round hset
      have hone : counter = 1 := BitVec.eq_of_toNat_eq hcounter
      subst hone
      have hproduct : a * (1 : Word) = a := BitVec.mul_one a
      rw [hproduct]
      exact ⟨m₁, hround, hend, hcond⟩
  | succ n ih =>
      obtain ⟨m₁, hround, hagain, -⟩ := h.round hset
      have hdown : (counter - 1).toNat = n + 1 := by
        have hone : (1 : Word).toNat = 1 := rfl
        rw [BitVec.toNat_sub, hcounter, hone]
        omega
      rw [hdown, if_pos (by omega)] at hagain
      obtain ⟨m', hrest, hend, hcond⟩ := ih hagain hdown (by omega)
      have hsum : sum + a + a * (counter - 1) = sum + a * counter := by grind
      rw [hsum] at hend
      refine ⟨m', ?_, hend, hcond⟩
      rw [Nat.mul_succ, Nat.add_comm]
      exact hround.trans hrest

/-- **One round is all** for any other count: it has gone below zero, or is so large that it counts
as negative. -/
theorem round_of_not_positive (h : m.Multiplies a b 3 counter sum)
    (hset : ∀ op, instructions op = true) (hcounter : counter.toNat = 0 ∨ 0x8000 < counter.toNat) :
    ∃ m', m.Steps instructions 3 m' ∧ m'.Multiplies a b 6 (counter - 1) (sum + a) ∧
      m'.processor.cond = .negative := by
  obtain ⟨m', hround, hend, hcond⟩ := h.round hset
  have hdown : 0x8000 ≤ (counter - 1).toNat := by
    have hone : (1 : Word).toNat = 1 := rfl
    have hlt := counter.isLt
    rw [BitVec.toNat_sub, hone]
    omega
  have hnegative : Condition.ofWord (counter - 1) = .negative := by
    have hsign : (counter - 1).msb = true := by
      rw [BitVec.msb_eq_decide]
      exact decide_eq_true hdown
    rw [Condition.ofWord, if_pos hsign]
  rw [if_neg (by omega)] at hend
  exact ⟨m', hround, hend, hcond.trans hnegative⟩

/-! ## After the loop -/

/-- The program halts with what it has in its registers. -/
theorem halt (h : m.Multiplies a b 6 counter sum) (hset : instructions .trap = true) :
    ∃ m', m.Steps instructions 1 m' ∧ m'.processor.status = .halted ∧
      m'.processor.register 1 = counter ∧ m'.processor.register 2 = sum ∧
      m'.processor.cond = m.processor.cond := by
  obtain ⟨m', hstep, hhalted, hregisters, hcond, -, -⟩ :=
    h.place.halt (Image.ordinary rfl (by decide)) rfl hset
  refine ⟨m', hstep, hhalted, ?_, ?_, hcond⟩
  · rw [Processor.register, hregisters]
    exact h.counter
  · rw [Processor.register, hregisters]
    exact h.sum

end Multiplies

end Machine

/-! ## Whole runs -/

section Programs

variable {settings : Settings} {program : Program} {a b : Word}

/-- A run that has come out of the loop after some rounds ends with what it has then. -/
theorem run_of_multiplies (hlimit : settings.options.maxSteps = none)
    (hset : ∀ op, settings.instructions op = true) {terminal : Terminal} {journal : Journal}
    {s : Session} (hs : program.session? settings.sorted.options terminal journal = some s)
    {n fuel : Nat} {m : Machine} {counter sum : Word}
    (hsteps : s.machine.Steps settings.instructions (3 + n) m)
    (hend : m.Multiplies a b 6 counter sum) (hfuel : n + 4 < fuel) :
    ∃ c r, run fuel settings program terminal journal = some c ∧ c.result = some r ∧
      r.status = "ok" ∧ r.final.status = .halted ∧ r.steps = n + 4 ∧
      r.final.register 1 = counter ∧ r.final.register 2 = sum ∧
      r.final.cond = m.processor.cond := by
  obtain ⟨m', hlast, hhalted, hcounter, hsum, hcond⟩ := hend.halt (hset .trap)
  have henough : 3 + n + 1 < fuel := by omega
  obtain ⟨c, hrun, hleaves⟩ := run_of_halted hlimit hs (hsteps.trans hlast)
    (Processor.running_of_halted hhalted) henough
  obtain ⟨r, hr, hok, hstatus, hcompleted, hfinal, -⟩ := hleaves.halted hhalted
  refine ⟨c, r, hrun, hr, hok, hstatus, ?_, ?_, ?_, ?_⟩
  · omega
  · rw [hfinal, hcounter]
  · rw [hfinal, hsum]
  · rw [hfinal, hcond]

end Programs

/-- **Multiplication.**  For a second factor from one to `0x8000` the program leaves the product,
modulo the size of a word, after three instructions for each time that the first factor is added and
four more.  For zero and for anything larger it adds the first factor once: what is left of the
second one then is not positive. -/
theorem run_multiplication {settings : Settings} {program : Program} {a b : Word}
    (hprogram : program.image? = some (.multiplication a b))
    (hstart : Word.ofInt (settings.options.start 0x3000) = 0x3000)
    (hlimit : settings.options.maxSteps = none) (hset : ∀ op, settings.instructions op = true)
    (terminal : Terminal) (journal : Journal) :
    (1 ≤ b.toNat → b.toNat ≤ 0x8000 → ∀ fuel, 3 * b.toNat + 4 < fuel →
      ∃ c r, run fuel settings program terminal journal = some c ∧ c.result = some r ∧
        r.status = "ok" ∧ r.final.status = .halted ∧ r.steps = 3 * b.toNat + 4 ∧
        (r.final.register 2).toNat = a.toNat * b.toNat % 65536 ∧ r.final.register 1 = 0 ∧
        r.final.cond = .zero) ∧
    (b.toNat = 0 ∨ 0x8000 < b.toNat → ∀ fuel, 7 < fuel →
      ∃ c r, run fuel settings program terminal journal = some c ∧ c.result = some r ∧
        r.status = "ok" ∧ r.final.status = .halted ∧ r.steps = 7 ∧ r.final.register 2 = a ∧
        r.final.register 1 = b - 1 ∧ r.final.cond = .negative) := by
  obtain ⟨s, hs, hat, -⟩ :=
    Program.exists_at hprogram hstart (Nat.le_of_ble_eq_true rfl) terminal journal
  obtain ⟨m₁, hbefore, hloop⟩ := Machine.Multiplies.begin hat hset
  have hnothing : ∀ w : Word, 0 + w = w := BitVec.zero_add
  constructor
  · intro hpos hle fuel hfuel
    obtain ⟨n, hn⟩ : ∃ n, b.toNat = n + 1 := ⟨b.toNat - 1, by omega⟩
    rw [hn] at hfuel hle ⊢
    obtain ⟨m₂, hrounds, hend, hzero⟩ := hloop.rounds hset hn hle
    obtain ⟨c, r, hrun, hr, hstatus, hhalted, hsteps, hcounter, hproduct, hcond⟩ :=
      run_of_multiplies hlimit hset hs (hbefore.trans hrounds) hend hfuel
    refine ⟨c, r, hrun, hr, hstatus, hhalted, hsteps, ?_, hcounter, hcond.trans hzero⟩
    rw [hproduct, hnothing, BitVec.toNat_mul, hn]
  · intro hb fuel hfuel
    obtain ⟨m₂, hround, hend, hnegative⟩ := hloop.round_of_not_positive hset hb
    obtain ⟨c, r, hrun, hr, hstatus, hhalted, hsteps, hcounter, hsum, hcond⟩ :=
      run_of_multiplies hlimit hset hs (hbefore.trans hround) hend hfuel
    rw [hnothing] at hsum
    exact ⟨c, r, hrun, hr, hstatus, hhalted, hsteps, hsum, hcounter, hcond.trans hnegative⟩

/-- Six times seven, and a factor that is too large. -/
theorem run_multiplication_answer :
    (∃ c r, run 26 {} (.multiplication 6 7) (.buffer [] .sentinel) ⟨.error, #[]⟩ = some c ∧
      c.result = some r ∧ r.steps = 25 ∧ (r.final.register 2).toNat = 42 ∧
      r.final.cond = .zero) ∧
    ∃ c r, run 8 {} (.multiplication 6 0x8001) (.buffer [] .sentinel) ⟨.error, #[]⟩ = some c ∧
      c.result = some r ∧ r.steps = 7 ∧ r.final.register 2 = 6 := by
  have hstart : Word.ofInt (({} : Settings).options.start 0x3000) = 0x3000 := by decide
  obtain ⟨hmultiplies, -⟩ := run_multiplication (Program.image?_multiplication 6 7) hstart rfl
    (fun _ => rfl) (.buffer [] .sentinel) ⟨.error, #[]⟩
  obtain ⟨-, hadds⟩ := run_multiplication (Program.image?_multiplication 6 0x8001) hstart rfl
    (fun _ => rfl) (.buffer [] .sentinel) ⟨.error, #[]⟩
  obtain ⟨c, r, hrun, hr, -, -, hsteps, hproduct, -, hcond⟩ :=
    hmultiplies (by decide) (by decide) 26 (by decide)
  obtain ⟨c', r', hrun', hr', -, -, hsteps', hsum, -, -⟩ := hadds (by decide) 8 (by decide)
  exact ⟨⟨c, r, hrun, hr, hsteps, hproduct, hcond⟩, c', r', hrun', hr', hsteps', hsum⟩

end LittleComputer
