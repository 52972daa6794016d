import LittleComputer.Proofs.Input
import LittleComputer.Proofs.Layers
import LittleComputer.Proofs.Steps

/-!
# Sliding into the image

A zero word is a branch that asks for no flag, and so it does nothing.  A program that starts below
its image slides over zero words until it comes to it, and finds all as it would be at the start.

* `Image.machineAt` — the machine of an image that starts at an address.
* `Exec.cycle_zero`, `Session.after_slide` — one zero word, and any number of them.
* `Session.Delayed`, `Session.runFor_delayed` — sessions that differ in what came before them go the
  same way.
* `Exec.cycle_keyboard` — what becomes of a slide that comes to the keyboard registers.
* `runOn_slide` — **the usual start and the start at the origin**.
-/

namespace LittleComputer

/-! ## Zero words -/

/-- Addresses on the way from the usual start to the keyboard status register. -/
theorem toNat_slideAddress {k : Nat} (hk : k ≤ 52736) :
    (Word.ofInt (0x3000 + k)).toNat = 0x3000 + k := by
  rw [Word.toNat_ofInt]
  omega

/-- The machine of an image that starts at an address, over memory without initial values. -/
def Image.machineAt (image : Image) (terminal : Terminal) (address : Int) : Machine where
  processor := .reset address
  memory := (Memory.empty.load image.origin image.words).2
  terminal := terminal

/-- **A zero word does nothing.** -/
theorem Exec.cycle_zero {instructions : InstructionSet} {m : Machine}
    (hset : instructions .br = true) (hpc : m.processor.pc ≠ Memory.keyboardStatus)
    (hzero : m.current = 0) : cycle instructions m = .ok 0 (m.advance 0).resetCodes := by
  have hperform := Instruction.perform_br (decode (0 : Word).toNat) (m.advance 0).resetCodes
  have hmask : (decode (0 : Word).toNat).nzp &&& (m.advance 0).resetCodes.processor.cond = 0 :=
    BitVec.zero_and
  rw [if_pos hmask] at hperform
  exact cycle_of_perform hpc hzero (by decide) hset hperform

/-- It takes the machine of an image from one address to the next. -/
theorem Image.release_advance_machineAt (image : Image) {terminal : Terminal} (address : Int)
    (hfresh : terminal.resetCodes = terminal) :
    ((image.machineAt terminal address).advance 0).resetCodes.release =
      image.machineAt terminal (address + 1) := by
  rw [machineAt, machineAt, Processor.reset, Processor.reset, Word.ofInt_add_one]
  simp only [Machine.advance, Machine.resetCodes, Machine.withTerminal, Machine.release, hfresh]

/-- The row of the zero word that a program slides over after `i` others. -/
def Image.slideRow (image : Image) (o : Options) (i : Nat) : TraceRow where
  step := i + 1
  addr := Word.ofInt (0x3000 + i)
  instr := 0
  registers := Vector.replicate 8 0
  pc := Word.ofInt (0x3000 + i + 1)
  cond := .zero
  watched := (Memory.empty.load image.origin image.words).2.watched o.watch
  codes := if o.traceTerminal then some (none, none) else none

/-- The rows of the first `k` zero words, if rows are asked for. -/
def Image.slide (image : Image) (o : Options) (k : Nat) : List TraceRow :=
  if o.trace then (List.range k).map (image.slideRow o) else []

theorem Image.slide_succ (image : Image) (o : Options) (k : Nat) :
    image.slide o (k + 1) =
      image.slide o k ++ if o.trace then [image.slideRow o k] else [] := by
  unfold slide
  split
  · rw [List.range_succ, List.map_append, List.map_singleton]
  · rfl

/-- `s.Slid o image terminal k` : the session has slid over the first `k` words from the usual start
on, and nothing else has happened. -/
structure Session.Slid (s : Session) (o : Options) (image : Image) (terminal : Terminal) (k : Nat) :
    Prop where
  /-- The machine is as it would be at the start, but for the word in hand. -/
  machine : s.machine.release = image.machineAt terminal (0x3000 + k)
  /-- The zero words are all its steps. -/
  steps : s.steps = k
  /-- They are all its rows. -/
  trace : s.trace.toList = image.slide o k

section Slides

variable {settings : Settings} {image : Image} {terminal : Terminal} {s : Session} {k : Nat}

/-- Over one more zero word a session slides on. -/
theorem Session.Slid.next (h : s.Slid settings.options image terminal k)
    (hlimit : settings.options.maxSteps = none) (hset : settings.instructions .br = true)
    (hfresh : terminal.resetCodes = terminal) (hk : k < 52736)
    (hzero : (Memory.empty.load image.origin image.words).2.peek (Word.ofInt (0x3000 + k)) = 0) :
    ∃ t, s.turn settings = .next t ∧ t.Slid settings.options image terminal (k + 1) := by
  have hpc : (image.machineAt terminal (0x3000 + k)).processor.pc ≠ Memory.keyboardStatus := by
    intro heq
    have haddress := (toNat_slideAddress (Nat.le_of_lt hk)).symm.trans (congrArg BitVec.toNat heq)
    have hstatus : Memory.keyboardStatus.toNat = 0xFE00 := rfl
    omega
  have hcycle := (Exec.cycle_congr h.machine).trans (Exec.cycle_zero hset hpc hzero)
  have hrunning : s.machine.processor.running = true := congrArg (·.processor.running) h.machine
  have hat : s.machine.processor.pc = Word.ofInt (0x3000 + k) :=
    congrArg (·.processor.pc) h.machine
  refine ⟨_, turn_eq_next_iff.2 ⟨hrunning, Options.exhausted?_of_maxSteps hlimit s.steps, _, _,
    hcycle, rfl⟩, ?_⟩
  constructor
  case machine => exact image.release_advance_machineAt (0x3000 + k) hfresh
  case steps => exact congrArg (· + 1) h.steps
  case trace =>
    have hnext := Word.ofInt_add_one (0x3000 + k)
    rw [Image.slide_succ, ← h.trace]
    unfold advance
    dsimp only
    split
    · rw [Array.toList_push, hat, h.steps, Image.slideRow, hnext]
      rfl
    · rw [List.append_nil]

/-- **A slide**: over zero words a session slides as far as they go. -/
theorem Session.after_slide (hlimit : settings.options.maxSteps = none)
    (hset : settings.instructions .br = true) (hfresh : terminal.resetCodes = terminal)
    (hs : s.Slid settings.options image terminal 0) (hk : k ≤ 52736)
    (hzero : ∀ i < k,
      (Memory.empty.load image.origin image.words).2.peek (Word.ofInt (0x3000 + i)) = 0) :
    ∃ t, s.after settings k = some t ∧ t.Slid settings.options image terminal k := by
  induction k with
  | zero => exact ⟨s, rfl, hs⟩
  | succ k ih =>
      obtain ⟨t, hafter, ht⟩ := ih (by omega) fun i hi => hzero i (by omega)
      obtain ⟨u, hturn, hu⟩ := ht.next hlimit hset hfresh (by omega) (hzero k (by omega))
      exact ⟨u, after_succ_eq_some_iff'.2 ⟨t, hafter, hturn⟩, hu⟩

end Slides

/-! ## Sessions that started later -/

/-- The row, of a session that had completed `k` steps more. -/
def TraceRow.delayed (row : TraceRow) (k : Nat) : TraceRow := { row with step := row.step + k }

/-- The report, on such a session. -/
def Report.delayed (report : Report) (k : Nat) : Report := { report with step := report.step + k }

/-- The end of such a session. -/
def Ending.delayed (k : Nat) : Ending → Ending
  | .faulted report => .faulted (report.delayed k)
  | ending => ending

/-- The result of such a session, which begins with the rows of these steps. -/
def Result.delayed (r : Result) (rows : List TraceRow) (k : Nat) : Result :=
  { r with
    steps := r.steps + k
    trace := rows ++ r.trace.map (·.delayed k)
    error := r.error.map (·.delayed k) }

/-- The second session goes on like the first, after `k` steps that it has completed before, with
these rows. -/
structure Session.Delayed (rows : List TraceRow) (k : Nat) (s s' : Session) : Prop where
  /-- The machines may only have different words in hand, -/
  release : s'.machine.release = s.machine.release
  /-- and not even that where the run is over. -/
  machine : s.machine.processor.running = false → s'.machine = s.machine
  /-- The steps before are counted. -/
  steps : s'.steps = s.steps + k
  /-- Their rows are there. -/
  trace : s'.trace.toList = rows ++ s.trace.toList.map (·.delayed k)

/-- What turns of such sessions come to. -/
inductive Turn.Delayed (rows : List TraceRow) (k : Nat) : Turn → Turn → Prop
  /-- An instruction has been completed. -/
  | next {t t' : Session} (h : t.Delayed rows k t') : Delayed rows k (.next t) (.next t')
  /-- The run is over, with the same machine. -/
  | ended (ending : Ending) {t t' : Session} (h : t.Delayed rows k t')
      (machine : t'.machine = t.machine) :
      Delayed rows k (.over ending t) (.over (ending.delayed k) t')
  /-- The turn never ends. -/
  | endless : Delayed rows k .endless .endless

namespace Session

variable {settings : Settings} {s s' : Session} {rows : List TraceRow} {k : Nat}

/-- Completing an instruction leaves them so. -/
theorem Delayed.advance (h : s.Delayed rows k s') (o : Options) (m : Machine) (address w : Word) :
    (Session.advance o { s with machine := m } address w).Delayed rows k
      (Session.advance o { s' with machine := m } address w) where
  release := rfl
  machine _ := rfl
  steps := by
    show s'.steps + 1 = s.steps + 1 + k
    rw [h.steps]
    omega
  trace := by
    unfold Session.advance
    dsimp only
    split
    · rw [Array.toList_push, Array.toList_push, h.trace, List.map_append, List.map_singleton,
        List.append_assoc]
      simp only [TraceRow.delayed, TraceRow.after, h.steps, Nat.add_right_comm]
    · exact h.trace

/-- So does failing. -/
theorem Delayed.fail (h : s.Delayed rows k s') (m : Machine) (report : Report) :
    Turn.Delayed rows k (Session.fail { s with machine := m } report)
      (Session.fail { s' with machine := m } (report.delayed k)) :=
  .ended (.faulted report) ⟨rfl, fun _ => rfl, h.steps, h.trace⟩ rfl

/-- **Turns go the same way** as if nothing had come before. -/
theorem turn_delayed (hlimit : settings.options.maxSteps = none) (h : s.Delayed rows k s') :
    Turn.Delayed rows k (s.turn settings) (s'.turn settings) := by
  have hcycle : Exec.cycle settings.instructions s'.machine =
      Exec.cycle settings.instructions s.machine := Exec.cycle_congr h.release
  have hrunning : s'.machine.processor.running = s.machine.processor.running :=
    congrArg (·.processor.running) h.release
  have hpc : s'.machine.processor.pc = s.machine.processor.pc :=
    congrArg (·.processor.pc) h.release
  have hreport : ∀ cause m, s'.faultReport cause m = (s.faultReport cause m).delayed k := by
    intro cause m
    simp only [faultReport, Report.delayed, h.steps, hpc, Int.natCast_add]
  unfold turn
  rw [hrunning]
  split
  · simp only [Options.exhausted?_of_maxSteps hlimit, hcycle]
    split
    · rw [hpc]
      exact .next (h.advance _ _ _ _)
    · rename_i cause m _
      have hfail := h.fail m (s.faultReport cause m)
      rw [← hreport] at hfail
      exact hfail
    · exact .ended .interrupted ⟨rfl, fun _ => rfl, h.steps, h.trace⟩ rfl
    · exact .endless
  · rename_i hstopped
    exact .ended .halted h (h.machine (Bool.eq_false_iff.2 hstopped))

/-- **Runs go the same way.** -/
theorem runFor_delayed (hlimit : settings.options.maxSteps = none) (h : s.Delayed rows k s')
    (fuel : Nat) :
    (runFor settings fuel s = none ∧ runFor settings fuel s' = none) ∨
      ∃ ending t t', runFor settings fuel s = some (ending, t) ∧
        runFor settings fuel s' = some (ending.delayed k, t') ∧ t.Delayed rows k t' ∧
        t'.machine = t.machine := by
  induction fuel generalizing s s' with
  | zero => exact .inl ⟨rfl, rfl⟩
  | succ fuel ih =>
      have hturn := turn_delayed hlimit h
      rw [runFor, runFor]
      generalize s.turn settings = turn at hturn ⊢
      generalize s'.turn settings = turn' at hturn ⊢
      cases hturn with
      | next ht => exact ih ht
      | @ended ending t t' ht hm =>
          have hclosed : (t'.close (ending.delayed k)).machine = (t.close ending).machine :=
            congrArg (fun m => { m with terminal := m.terminal.flush }) hm
          exact .inr ⟨ending, _, _, rfl, rfl,
            ⟨congrArg Machine.release hclosed, fun _ => hclosed, ht.steps, ht.trace⟩, hclosed⟩
      | endless => exact .inl ⟨rfl, rfl⟩

/-- What is left of them differs in the steps before and their rows. -/
theorem Delayed.conclusion (h : s.Delayed rows k s') (hm : s'.machine = s.machine) (o : Options)
    (ending : Ending) :
    (s'.conclusion o (ending.delayed k)).result =
        (s.conclusion o ending).result.map (·.delayed rows k) ∧
      (s'.conclusion o (ending.delayed k)).terminal = (s.conclusion o ending).terminal := by
  refine ⟨?_, congrArg Machine.terminal hm⟩
  cases ending with
  | interrupted => rfl
  | _ => simp only [Session.conclusion, Ending.delayed, Session.result?, result?.report,
      Option.map_some, Option.map_none, Result.delayed, h.steps, h.trace, hm]

end Session

/-! ## The keyboard registers -/

/-- The report on a program that has slid into the keyboard registers: the word that it fetches
there is refused, unless it is a fault to ask for a character and there is none. -/
def Report.atKeyboard (strict : Bool) (codes : List Nat) (steps : Nat) : Report :=
  if strict ∧ codes = [] then
    { kind := .inputUnderflow, message := "Input buffer is empty", step := steps, addr := 0xFE00 }
  else
    { kind := .unusedOpcode, message := "Unused operand code: RTI", step := steps, addr := 0xFE00
      instr := some 0x8000 }

/-- **A program that has come to the keyboard status register** takes a character and fails, or
fails for want of one. -/
theorem Exec.cycle_keyboard {instructions : InstructionSet} {m : Machine}
    (hset : instructions .rti = true) (hpc : m.processor.pc = Memory.keyboardStatus)
    {strict : Bool} {codes : List Nat} (hterminal : m.terminal = .buffer codes (.ofStrict strict))
    (steps : Nat) :
    ∃ cause m', cycle instructions m = .error (.fault cause) m' ∧
      ({ kind := cause.kind, message := cause.message, step := steps,
          addr := m.processor.pc.toNat, instr := m'.processor.ir } : Report) =
        .atKeyboard strict codes steps ∧
      m'.terminal.output = [] ∧ m'.terminal.pending = codes.tail ∧
      m'.terminal.asked = [codes.head?] := by
  cases codes with
  | cons code codes =>
      have hread : m.terminal.read = (.ok code, m.terminal.read.2) := by
        rw [hterminal]
        rfl
      refine ⟨_, _, cycle_keyboard_ok hpc hset hread, ?_, ?_⟩
      · rw [hpc, Report.atKeyboard, if_neg (by simp)]
        rfl
      · rw [hterminal]
        exact ⟨rfl, rfl, rfl⟩
  | nil =>
      cases strict with
      | false =>
          have hread : m.terminal.read = (.ok endOfInputCode, m.terminal.read.2) := by
            rw [hterminal]
            rfl
          refine ⟨_, _, cycle_keyboard_ok hpc hset hread, ?_, ?_⟩
          · rw [hpc, Report.atKeyboard, if_neg (by simp)]
            rfl
          · rw [hterminal]
            exact ⟨rfl, rfl, rfl⟩
      | true =>
          have hread : m.terminal.read = (.error (.fault .inputUnderflow), m.terminal.read.2) := by
            rw [hterminal]
            rfl
          refine ⟨_, _, cycle_keyboard_error hpc hread, ?_, ?_⟩
          · rw [hpc, Report.atKeyboard, if_pos ⟨rfl, rfl⟩]
            rfl
          · rw [hterminal]
            exact ⟨rfl, rfl, rfl⟩

/-! ## Programs -/

/-- The options leave to a program where it starts and what memory holds, and do not limit it. -/
structure Options.Usual (o : Options) : Prop where
  /-- It starts at the usual address, -/
  startAddress : o.startAddress = defaultStart
  /-- wherever its image is. -/
  startAtOrigin : o.startAtOrigin = false
  /-- It is not limited. -/
  maxSteps : o.maxSteps = none
  /-- Memory holds nothing but the image. -/
  initialMemory : o.initialMemory = {}

/-- The same settings, but programs start at their origin. -/
def Settings.fromOrigin (settings : Settings) : Settings :=
  { settings with options := { settings.options with startAtOrigin := true } }

/-- Without initial values a program starts with the machine of its image. -/
theorem Session.machine_start {o : Options} (h : o.initialMemory = {}) (image : Image)
    (terminal : Terminal) (journal : Journal) :
    (Session.start o image terminal journal).machine =
      image.machineAt terminal (o.start image.origin) := by
  rw [Image.machineAt, Session.start, h]
  rfl

/-- A cell that starts with zero holds zero. -/
theorem Image.peek_eq_zero {image : Image} {a : Word} (h : image.startWord {} a = 0) :
    (Memory.empty.load image.origin image.words).2.peek a = 0 := by
  have hstart := Session.peek_start {} image (.buffer [] .sentinel) ⟨.error, #[]⟩ a
  rw [h] at hstart
  exact BitVec.eq_of_toNat_eq (Int.ofNat.inj hstart)

/-- Cells below the image start with zero. -/
theorem Image.startWord_of_lt {image : Image} {a : Word} (h : a.toNat < image.first) :
    image.startWord {} a = 0 := by
  rw [startWord, dif_neg (by omega)]
  rfl

section Programs

variable {settings : Settings} {program : Program} {image : Image} {k : Nat}

/-- A program slides as far as memory starts with zeros. -/
theorem Program.exists_slid (himage : program.image? = some image)
    (husual : settings.options.Usual) (hset : settings.instructions .br = true) (hk : k ≤ 52736)
    (hzero : ∀ a : Word, 0x3000 ≤ a.toNat → a.toNat < 0x3000 + k → image.startWord {} a = 0)
    (codes : List Nat) (policy : EndOfInput) (journal : Journal) :
    ∃ s t, program.session? settings.sorted.options (.buffer codes policy) journal = some s ∧
      s.after settings.sorted k = some t ∧
      t.Slid settings.sorted.options image (.buffer codes policy) k := by
  obtain ⟨journal', hs⟩ :=
    Program.session?_of_image? himage settings.sorted.options (.buffer codes policy) journal
  have hlimit : settings.sorted.options.maxSteps = none := husual.maxSteps
  have hempty : settings.sorted.options.initialMemory = {} := husual.initialMemory
  have hstart : settings.sorted.options.start image.origin = 0x3000 := by
    show (if settings.options.startAtOrigin then _ else settings.options.startAddress) = _
    rw [husual.startAtOrigin, husual.startAddress]
    rfl
  have hslid : (Session.start settings.sorted.options image (.buffer codes policy) journal').Slid
      settings.sorted.options image (.buffer codes policy) 0 := by
    constructor
    case machine =>
      rw [Session.machine_start hempty, hstart]
      rfl
    case steps => rfl
    case trace =>
      rw [Image.slide, List.range_zero, List.map_nil, ite_self]
      rfl
  obtain ⟨t, hafter, ht⟩ := Session.after_slide hlimit hset rfl hslid hk fun i hi => by
    have haddress := toNat_slideAddress (show i ≤ 52736 by omega)
    exact Image.peek_eq_zero (hzero _ (by omega) (by omega))
  exact ⟨_, t, hs, hafter, ht⟩

/-- **The usual start comes to the origin** of an image above it, and then it is a start there. -/
theorem Program.exists_delayed (himage : program.image? = some image)
    (husual : settings.options.Usual) (hset : settings.instructions .br = true)
    (horigin : image.origin = 0x3000 + k) (hk : k ≤ 52736) (codes : List Nat) (policy : EndOfInput)
    (journal : Journal) :
    ∃ s t u, program.session? settings.sorted.options (.buffer codes policy) journal = some s ∧
      s.after settings.sorted k = some t ∧
      program.session? settings.fromOrigin.sorted.options (.buffer codes policy) journal =
        some u ∧
      u.Delayed (image.slide settings.sorted.options k) k t := by
  have hfirst : image.first = 0x3000 + k := by
    rw [Image.first]
    omega
  obtain ⟨s, t, hs, hafter, ht⟩ := exists_slid himage husual hset hk
    (fun a _ ha => Image.startWord_of_lt (by omega)) codes policy journal
  obtain ⟨journal', hu⟩ := Program.session?_of_image? himage settings.fromOrigin.sorted.options
    (.buffer codes policy) journal
  have hempty : settings.fromOrigin.sorted.options.initialMemory = {} := husual.initialMemory
  have hmachine : (Session.start settings.fromOrigin.sorted.options image (.buffer codes policy)
      journal').machine = image.machineAt (.buffer codes policy) (0x3000 + k) := by
    rw [Session.machine_start hempty, ← horigin]
    rfl
  refine ⟨s, t, _, hs, hafter, hu, ?_⟩
  constructor
  case release =>
    rw [ht.machine, hmachine]
    rfl
  case machine =>
    intro hstopped
    rw [hmachine] at hstopped
    cases hstopped
  case steps => exact ht.steps.trans (Nat.zero_add k).symm
  case trace => exact ht.trace.trans (List.append_nil _).symm

end Programs

/-- **The usual start and the start at the origin.**  A program whose image lies above the usual
start, but not above the keyboard status register, comes to the same from there as from its origin,
with whatever input, if it comes to an end: only the zero words in between are steps and rows of
their own.  A program whose image leaves zeros up to that register slides into it.  There it takes a
character and fails, or fails for want of one. -/
theorem runOn_slide {settings : Settings} {program : Program} {image : Image}
    (himage : program.image? = some image) (husual : settings.options.Usual)
    (hset : ∀ op, settings.instructions op = true) (codes : List Nat) (journal : Journal) :
    (∀ k : Nat, image.origin = 0x3000 + k → k ≤ 52736 → ∀ fuel,
      (runOn codes (k + fuel) settings program journal).map (fun c => (c.result, c.terminal)) =
        (runOn codes fuel settings.fromOrigin program journal).map fun c =>
          (c.result.map (·.delayed (image.slide settings.sorted.options k) k), c.terminal)) ∧
    ((∀ a : Word, 0x3000 ≤ a.toNat → a.toNat < 0xFE00 → image.startWord {} a = 0) →
      ∀ fuel, 52736 < fuel →
        ∃ c r, runOn codes fuel settings program journal = some c ∧ c.result = some r ∧
          r.steps = 52736 ∧ r.trace = image.slide settings.sorted.options 52736 ∧
          r.output = [] ∧ r.final.status = .faulted ∧
          r.error = some (.atKeyboard settings.options.strictInput codes 52736) ∧
          c.terminal.pending = codes.tail ∧ c.terminal.asked = [codes.head?]) := by
  have hlimit : settings.sorted.options.maxSteps = none := husual.maxSteps
  constructor
  · intro k horigin hk fuel
    obtain ⟨s, t, u, hs, hafter, hu, hdelayed⟩ := Program.exists_delayed himage husual (hset .br)
      horigin hk codes (.ofStrict settings.options.strictInput) journal
    have hrun : runOn codes (k + fuel) settings program journal = _ := run_of_session? hs (k + fuel)
    have hrun' : runOn codes fuel settings.fromOrigin program journal = _ := run_of_session? hu fuel
    rw [Session.runFor_add hafter] at hrun
    rw [Session.runFor_congr settings.fromOrigin.sorted settings.sorted fun _ => rfl] at hrun'
    rw [hrun, hrun']
    obtain ⟨hnone, hnone'⟩ | ⟨ending, v, v', hv, hv', hend, hmachine⟩ :=
      Session.runFor_delayed hlimit hdelayed fuel
    · rw [hnone, hnone']
      rfl
    · obtain ⟨hresult, hterminal⟩ := hend.conclusion hmachine settings.sorted.options ending
      have hwatch : (v.conclusion settings.fromOrigin.sorted.options ending).result =
          (v.conclusion settings.sorted.options ending).result := by
        cases ending <;> rfl
      rw [hv, hv', Option.map_some, Option.map_some, Option.map_some, Option.map_some, hresult,
        hterminal, hwatch]
      rfl
  · intro hzero fuel hfuel
    obtain ⟨s, t, hs, hafter, ht⟩ := Program.exists_slid himage husual (hset .br)
      (Nat.le_refl 52736) hzero codes (.ofStrict settings.options.strictInput) journal
    have hrunning : t.machine.processor.running = true :=
      congrArg (·.processor.running) ht.machine
    have hpc : t.machine.processor.pc = Memory.keyboardStatus :=
      congrArg (·.processor.pc) ht.machine
    obtain ⟨cause, m, hcycle, hreport, houtput, hpending, hasked⟩ := Exec.cycle_keyboard
      (hset .rti) hpc (congrArg Machine.terminal ht.machine) t.steps
    have hends : t.Ends settings.sorted _ _ :=
      .faulted hrunning (Options.exhausted?_of_maxSteps hlimit t.steps) hcycle
    refine ⟨_, _, (run_eq_some_iff hs).2 ⟨_, t, _, _, hfuel, hafter, hends, rfl⟩, rfl, ht.steps,
      ht.trace, ?_, rfl, ?_, hpending, ?_⟩
    · exact (Terminal.output_flush m.terminal).trans houtput
    · rw [← ht.steps]
      exact congrArg some hreport
    · exact (congrArg (·.2.1) m.terminal.intake_flush).trans hasked

/-- Only halts, two words above the usual start. -/
def Program.raised : Program := .image ⟨0x3002, [0xF025]⟩

/-- Only halts, far below it. -/
def Program.lowered : Program := .image ⟨0x100, [0xF025]⟩

/-- Keeps rows. -/
def Settings.telling : Settings := { options := { trace := true } }

theorem runOn_slide_telling :
    (∃ c r, runOn [] 4 .telling .raised ⟨.error, #[]⟩ = some c ∧ c.result = some r ∧
      r.steps = 3 ∧ r.trace.map (·.addr) = [0x3000, 0x3001, 0x3002] ∧ r.error = none) ∧
    ∃ c r, runOn [65, 66] 52737 .telling .lowered ⟨.error, #[]⟩ = some c ∧ c.result = some r ∧
      r.steps = 52736 ∧ r.error = some (.atKeyboard false [65, 66] 52736) ∧
      c.terminal.pending = [66] := by
  have husual : Settings.telling.options.Usual := ⟨rfl, rfl, rfl, rfl⟩
  constructor
  · have himage : Program.raised.image? = some ⟨0x3002, [0xF025]⟩ := rfl
    obtain ⟨hsame, -⟩ := runOn_slide himage husual (fun _ => rfl) [] ⟨.error, #[]⟩
    obtain ⟨c, hrun, hc⟩ := Option.map_eq_some_iff.1 ((hsame 2 rfl (by decide) 2).trans rfl)
    exact ⟨c, _, hrun, congrArg Prod.fst hc, rfl, by decide, rfl⟩
  · have himage : Program.lowered.image? = some ⟨0x100, [0xF025]⟩ := rfl
    have hzero : ∀ a : Word, 0x3000 ≤ a.toNat → a.toNat < 0xFE00 →
        Image.startWord ⟨0x100, [0xF025]⟩ {} a = 0 := by
      intro a hlow _
      have habove : ¬ (0x100 ≤ a.toNat ∧ a.toNat < 0x101) := by omega
      exact dif_neg habove
    obtain ⟨-, hslide⟩ := runOn_slide himage husual (fun _ => rfl) [65, 66] ⟨.error, #[]⟩
    obtain ⟨c, r, hrun, hr, hsteps, -, -, -, herror, hpending, -⟩ := hslide hzero 52737 (by decide)
    exact ⟨c, r, hrun, hr, hsteps, herror, hpending⟩

end LittleComputer
