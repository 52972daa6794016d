import LittleComputer.Port
import LittleComputer.Proofs.Invariants

/-!
# Ports and terminals

Buffers and consoles find characters and put them out in ways of their own.  What can be seen of
either is the same: the characters to come, those put out, and what the end of the input is.

* `Seen`, `Visible` — what can be seen of a kind of port, and that its methods keep to it; `Buffer`
  and `Console` both do.
* `Port.readChar_of_cons`, `Port.readChar_of_nil`, `Port.writeChar_eq` — the common methods by what
  is seen.
* `Port.Simulation`, `Port.simulation` — **terminals are what is seen of ports**: every operation
  keeps a port and its terminal in step.
* `Port.Sends`, `Console.simulation` — consoles and their terminals also send out the same, bytes
  and flushes in order.
-/

namespace LittleComputer

/-! ## What is seen of a port -/

/-- What can be seen of a kind of port. -/
structure Seen where
  /-- The codes of the characters to come. -/
  pending : List Nat
  /-- The codes of the characters that have been put out. -/
  written : List Nat
  /-- The user interrupts a read past the end of the input. -/
  interrupts : Bool

namespace Seen

/-- What the next character is. -/
def next (s : Seen) : Except Break (Option Nat) :=
  match s.pending with
  | code :: _ => .ok (some code)
  | [] => if s.interrupts then .error (.stop .interrupted) else .ok none

/-- What is seen once the next character has been asked for. -/
def rest (s : Seen) : Seen := { s with pending := s.pending.tail }

/-- What is seen once a character has been put out. -/
def emitted (s : Seen) (code : Nat) : Seen := { s with written := s.written ++ [code] }

end Seen

/-- The methods of this kind of port do what is seen of them. -/
class Visible (σ : Type) [Provider σ] where
  /-- The device that ports of this kind are. -/
  device : Device
  /-- What can be seen. -/
  seen : σ → Seen
  /-- The next character is the next that is seen, -/
  next : ∀ s : σ, (Provider.next s).1 = (seen s).next
  /-- and it is taken. -/
  seen_next : ∀ s : σ, seen (Provider.next s).2 = (seen s).rest
  /-- Bytes can be put out. -/
  emit : ∀ (s : σ) (code : Int), 0 ≤ code → code < 256 → (Provider.emit s code).1 = .ok ()
  /-- They come after those from before. -/
  seen_emit : ∀ (s : σ) (code : Int), 0 ≤ code → code < 256 →
    seen (Provider.emit s code).2 = (seen s).emitted code.toNat
  /-- Pushing out does not show. -/
  seen_flush : ∀ s : σ, seen (Provider.flush s) = seen s
  /-- A buffer shows what has been put out, a console has nothing to show. -/
  output : ∀ s : σ, Provider.output s = match device with
    | .buffer => (seen s).written
    | .console => []

open Visible (seen)

/-- Of a buffer one sees the rest of its text. -/
instance : Visible Buffer where
  device := .buffer
  seen b := ⟨b.input.toList.drop b.position, b.emitted.toList, false⟩
  next b := by
    show b.next.1 = _
    unfold Buffer.next Seen.next
    split
    · rename_i h
      rw [List.drop_eq_getElem_cons (by simpa using h)]
      rfl
    · rename_i h
      rw [List.drop_eq_nil_of_le (by simpa using h)]
      rfl
  seen_next b := by
    show Seen.mk (b.next.2.input.toList.drop b.next.2.position) b.next.2.emitted.toList false = _
    unfold Buffer.next Seen.rest
    split
    · exact congrArg (Seen.mk · _ _) List.tail_drop.symm
    · rename_i h
      rw [List.drop_eq_nil_of_le (by simpa using h)]
      rfl
  emit b code hlow hhigh := by
    show (b.emit code).1 = _
    rw [Buffer.emit, if_pos ⟨hlow, by omega⟩]
  seen_emit b code hlow hhigh := by
    have hemit : (b.emit code).2 = { b with emitted := b.emitted.push code.toNat } := by
      rw [Buffer.emit, if_pos ⟨hlow, by omega⟩]
    show Seen.mk ((b.emit code).2.input.toList.drop (b.emit code).2.position)
      (b.emit code).2.emitted.toList false = _
    rw [hemit, Array.toList_push]
    rfl
  seen_flush _ := rfl
  output _ := rfl

/-- Of a console one sees the bytes to come. -/
instance : Visible Console where
  device := .console
  seen c := ⟨c.stdin.map BitVec.toNat, c.written.map BitVec.toNat, c.interrupts⟩
  next c := by
    show c.next.1 = _
    obtain ⟨stdin, interrupts, stdout⟩ := c
    cases stdin with
    | nil => cases interrupts <;> rfl
    | cons byte rest => rfl
  seen_next c := by
    obtain ⟨stdin, interrupts, stdout⟩ := c
    cases stdin with
    | nil => cases interrupts <;> rfl
    | cons byte rest => rfl
  emit c code hlow hhigh := by
    show (c.emit code).1 = _
    rw [Console.emit, if_pos ⟨hlow, hhigh⟩]
  seen_emit c code hlow hhigh := by
    have hemit : (c.emit code).2 =
        { c with stdout := c.stdout.push (.byte (BitVec.ofInt 8 code)) } := by
      rw [Console.emit, if_pos ⟨hlow, hhigh⟩]
    have hbyte : (BitVec.ofInt 8 code).toNat = code.toNat := by
      rw [BitVec.toNat_ofInt]
      omega
    show Seen.mk ((c.emit code).2.stdin.map BitVec.toNat)
      ((c.emit code).2.written.map BitVec.toNat) (c.emit code).2.interrupts = _
    simp [hemit, Console.written, Seen.emitted, hbyte]
  seen_flush c := by
    show Seen.mk (c.flush.stdin.map BitVec.toNat) (c.flush.written.map BitVec.toNat)
      c.flush.interrupts = _
    simp [Console.flush, Console.written]
  output _ := rfl

/-! ## The common methods -/

namespace Port

variable {σ : Type} [Provider σ] [Visible σ]

/-- A read takes the next character, if there is one. -/
theorem readChar_of_cons (p : Port σ) {code : Nat} {rest : List Nat}
    (h : (seen p.own).pending = code :: rest) :
    ∃ own, p.readChar = (.ok code, ⟨own, p.strict, some code, p.lastOut⟩) ∧
      seen own = (seen p.own).rest := by
  obtain ⟨own, strict, lastIn, lastOut⟩ := p
  have hnext := Visible.next own
  have hrest := Visible.seen_next own
  rcases hfound : Provider.next own with ⟨found, own'⟩
  rw [hfound] at hnext hrest
  dsimp only at h hnext hrest
  rw [Seen.next, h] at hnext
  subst hnext
  exact ⟨own', by simp only [readChar, hfound], hrest⟩

/-- What a read past the end of the input gives. -/
def ending (interrupts strict : Bool) : Except Break Nat :=
  if interrupts then .error (.stop .interrupted)
  else if strict then .error (.stop (.fault .inputUnderflow)) else .ok endOfInputCode

/-- Past the end of the input a read takes nothing. -/
theorem readChar_of_nil (p : Port σ) (h : (seen p.own).pending = []) :
    ∃ own, p.readChar = (ending (seen p.own).interrupts p.strict,
        ⟨own, p.strict, (ending (seen p.own).interrupts p.strict).toOption, p.lastOut⟩) ∧
      seen own = seen p.own := by
  obtain ⟨own, strict, lastIn, lastOut⟩ := p
  have hnext := Visible.next own
  have hrest := Visible.seen_next own
  rcases hfound : Provider.next own with ⟨found, own'⟩
  rw [hfound] at hnext hrest
  dsimp only at h hnext hrest ⊢
  rw [Seen.next, h] at hnext
  have hsame : seen own' = seen own := by
    rw [hrest, Seen.rest, h, List.tail_nil, ← h]
  subst hnext
  refine ⟨own', ?_, hsame⟩
  cases hinterrupts : (seen own).interrupts with
  | true =>
      simp only [hinterrupts, if_true] at hfound
      simp only [readChar, hfound]
      rfl
  | false =>
      simp only [hinterrupts, Bool.false_eq_true, if_false] at hfound
      simp only [readChar, hfound]
      cases strict <;> rfl

/-- A write puts out the low byte of its code, whatever the code is. -/
theorem writeChar_eq (p : Port σ) (code : Int) :
    ∃ own, p.writeChar code = (.ok (), ⟨own, p.strict, p.lastIn, some (code % 256)⟩) ∧
      seen own = (seen p.own).emitted (code % 256).toNat := by
  obtain ⟨own, strict, lastIn, lastOut⟩ := p
  have hlow : 0 ≤ code % 256 := Int.emod_nonneg code (by decide)
  have hhigh : code % 256 < 256 := Int.emod_lt_of_pos code (by decide)
  have hok := Visible.emit own _ hlow hhigh
  have hseen := Visible.seen_emit own _ hlow hhigh
  rcases hemit : Provider.emit own (code % 256) with ⟨result, own'⟩
  rw [hemit] at hok hseen
  dsimp only at hok hseen
  subst hok
  exact ⟨own', by simp only [writeChar, hemit], hseen⟩

theorem seen_flush (p : Port σ) : seen p.flush.own = seen p.own := Visible.seen_flush p.own

/-! ## Terminals -/

/-- `p.Shows t` : the terminal `t` is what can be seen of the port `p`. -/
structure Shows (p : Port σ) (t : Terminal) : Prop where
  /-- Where the output goes. -/
  device : t.device = Visible.device σ
  /-- What the end of the input is. -/
  atEnd : t.atEnd = if (seen p.own).interrupts then .interrupt else .ofStrict p.strict
  /-- The characters to come. -/
  pending : t.pending = (seen p.own).pending
  /-- The bytes that have been written. -/
  written : t.written.map BitVec.toNat = (seen p.own).written
  /-- The last code in. -/
  lastIn : p.lastIn = t.lastIn
  /-- The last code out. -/
  lastOut : p.lastOut = t.lastOut.map fun byte => (byte.toNat : Int)

/-- A fresh buffer is seen as one. -/
theorem shows_buffer (codes : List Nat) (strict : Bool) :
    (buffer codes strict).Shows (.buffer codes (.ofStrict strict)) :=
  ⟨rfl, rfl, rfl, rfl, rfl, rfl⟩

/-- So is a fresh console, with its bytes as characters. -/
theorem shows_console (bytes : List Byte) (strict interrupts : Bool) :
    (console bytes strict interrupts).Shows
      (.console bytes (if interrupts then .interrupt else .ofStrict strict)) :=
  ⟨rfl, rfl, rfl, rfl, rfl, rfl⟩

end Port

/-- Ports and terminals that stand in the relation `R` keep in step. -/
structure Port.Simulation {σ : Type} [Provider σ] (R : Port σ → Terminal → Prop) : Prop where
  /-- They show the same output. -/
  output : ∀ {p t}, R p t → p.output = t.output.map BitVec.toNat
  /-- They remember the same codes. -/
  codes : ∀ {p t}, R p t → p.lastIn = t.lastIn ∧
    p.lastOut = t.lastOut.map fun byte => (byte.toNat : Int)
  /-- A read gives the same. -/
  read : ∀ {p t}, R p t → p.readChar.1 = t.read.1.mapError .stop ∧ R p.readChar.2 t.read.2
  /-- A write is never refused. -/
  write : ∀ {p t}, R p t → ∀ code, (p.writeChar code).1 = .ok () ∧
    R (p.writeChar code).2 (t.write code)
  /-- Pushing out output keeps them related. -/
  flush : ∀ {p t}, R p t → R p.flush t.flush
  /-- So does forgetting codes. -/
  resetCodes : ∀ {p t}, R p t → R p.resetCodes t.resetCodes

/-- A code is written modulo 256. -/
theorem cast_toNat_byte (code : Int) : ((BitVec.ofInt 8 code).toNat : Int) = code % 256 := by
  rw [BitVec.toNat_ofInt]
  omega

/-- **Ports keep in step with what is seen of them.** -/
theorem Port.simulation {σ : Type} [Provider σ] [Visible σ] :
    Simulation (Shows : Port σ → Terminal → Prop) where
  output {p t} h := by
    rw [Port.output, Visible.output, Terminal.output, h.device]
    cases Visible.device σ with
    | buffer => exact h.written.symm
    | console => rfl
  codes h := ⟨h.lastIn, h.lastOut⟩
  read {p t} h := by
    have hend := h.atEnd
    have hwritten := (congrArg (List.map BitVec.toNat) t.written_read).trans h.written
    cases hpending : t.pending with
    | cons code rest =>
        obtain ⟨own, hread, hseen⟩ := p.readChar_of_cons (h.pending.symm.trans hpending)
        rw [hread]
        have hterminal : t.read = (.ok code, { t.record (.read (some code)) with
            pending := rest, lastIn := some code }) := by
          rw [Terminal.read, hpending]
        rw [hterminal] at hwritten ⊢
        refine ⟨rfl, ?_⟩
        constructor
        case device => exact h.device
        case atEnd => rw [hseen]; exact hend
        case pending => rw [hseen, Seen.rest, ← h.pending, hpending]; rfl
        case written => rw [hseen]; exact hwritten
        case lastIn => rfl
        case lastOut => exact h.lastOut
    | nil =>
        obtain ⟨own, hread, hseen⟩ := p.readChar_of_nil (h.pending.symm.trans hpending)
        rw [hread]
        -- the policy of the terminal says what the end of the input is
        have hresult : t.read.1.mapError Break.stop = ending (seen p.own).interrupts p.strict := by
          rw [Terminal.read, hpending]
          unfold ending
          dsimp only
          have hpolicy : (t.record (.read none)).atEnd = t.atEnd := rfl
          rw [hpolicy, hend]
          cases (seen p.own).interrupts <;> cases p.strict <;> rfl
        refine ⟨hresult.symm, ?_⟩
        constructor
        case device => rw [Terminal.device_read]; exact h.device
        case atEnd => rw [Terminal.atEnd_read, hseen]; exact hend
        case pending => rw [Terminal.pending_read, hpending, hseen, ← h.pending, hpending]; rfl
        case written => rw [hseen]; exact hwritten
        case lastIn =>
          rw [Terminal.lastIn_read, ← hresult]
          cases t.read.1 <;> rfl
        case lastOut => rw [Terminal.lastOut_read]; exact h.lastOut
  write {p t} h code := by
    obtain ⟨own, hwrite, hseen⟩ := p.writeChar_eq code
    rw [hwrite]
    refine ⟨rfl, ?_⟩
    constructor
    case device => exact h.device
    case atEnd => rw [hseen]; exact h.atEnd
    case pending => rw [hseen]; exact h.pending
    case written =>
      have hbyte : (BitVec.ofInt 8 code).toNat = (code % 256).toNat := by
        rw [← cast_toNat_byte, Int.toNat_natCast]
      rw [hseen, Terminal.written_write, List.map_append, h.written, List.map_singleton, hbyte]
      rfl
    case lastIn => exact h.lastIn
    case lastOut => exact congrArg some (cast_toNat_byte code).symm
  flush {p t} h := by
    constructor
    case device => exact h.device
    case atEnd => rw [seen_flush]; exact h.atEnd
    case pending => rw [seen_flush]; exact h.pending
    case written => rw [seen_flush, Terminal.written_flush]; exact h.written
    case lastIn => exact h.lastIn
    case lastOut => exact h.lastOut
  resetCodes h := ⟨h.device, h.atEnd, h.pending, h.written, rfl, rfl⟩

/-! ## What consoles send out -/

/-- What an event sends out, if it sends anything. -/
def Event.sent? : Event → Option Sent
  | read _ => none
  | wrote byte => some (.byte byte)
  | flushed => some .flushed

/-- `p.Sends t` : the terminal `t` is what can be seen of the console `p`, and has sent out the same
in the same order. -/
structure Port.Sends (p : Port Console) (t : Terminal) : Prop where
  /-- The terminal is what can be seen. -/
  shows : p.Shows t
  /-- The same has been sent out. -/
  sent : p.own.stdout.toList = t.transcript.toList.filterMap Event.sent?

/-- A fresh console has sent out nothing. -/
theorem Port.sends_console (bytes : List Byte) (strict interrupts : Bool) :
    (console bytes strict interrupts).Sends
      (.console bytes (if interrupts then .interrupt else .ofStrict strict)) :=
  ⟨shows_console bytes strict interrupts, rfl⟩

theorem Port.own_readChar {σ : Type} [Provider σ] (p : Port σ) :
    p.readChar.2.own = (Provider.next p.own).2 := by
  obtain ⟨own, strict, lastIn, lastOut⟩ := p
  rcases hnext : Provider.next own with ⟨_ | _ | code, own'⟩
  · simp only [readChar, hnext]
  · simp only [readChar, hnext]
    cases strict <;> rfl
  · simp only [readChar, hnext]

/-- Taking a byte sends out nothing. -/
theorem Console.stdout_next (c : Console) : c.next.2.stdout = c.stdout := by
  obtain ⟨stdin, interrupts, stdout⟩ := c
  cases stdin with
  | nil => cases interrupts <;> rfl
  | cons byte rest => rfl

/-- A read is an event that sends out nothing. -/
theorem Terminal.sent_read (t : Terminal) :
    t.read.2.transcript.toList.filterMap Event.sent? =
      t.transcript.toList.filterMap Event.sent? := by
  unfold read
  split
  · simp [record, Event.sent?]
  · dsimp only
    split <;> simp [record, Event.sent?]

/-- **Consoles and their terminals send out the same.** -/
theorem Console.simulation : Port.Simulation Port.Sends where
  output h := Port.simulation.output h.shows
  codes h := Port.simulation.codes h.shows
  read {p t} h := by
    obtain ⟨hresult, hshows⟩ := Port.simulation.read h.shows
    refine ⟨hresult, hshows, ?_⟩
    rw [Port.own_readChar, t.sent_read, ← h.sent]
    exact congrArg Array.toList p.own.stdout_next
  write {p t} h code := by
    obtain ⟨hresult, hshows⟩ := Port.simulation.write h.shows code
    refine ⟨hresult, hshows, ?_⟩
    have hbyte : BitVec.ofInt 8 (code % 256) = BitVec.ofInt 8 code := by
      apply BitVec.eq_of_toNat_eq
      rw [BitVec.toNat_ofInt, BitVec.toNat_ofInt]
      omega
    have hlow : 0 ≤ code % 256 := Int.emod_nonneg code (by decide)
    have hhigh : code % 256 < 256 := Int.emod_lt_of_pos code (by decide)
    have hemit : (p.writeChar code).2.own =
        { p.own with stdout := p.own.stdout.push (.byte (BitVec.ofInt 8 code)) } := by
      show (Console.emit p.own (code % 256)).2 = _
      rw [Console.emit, if_pos ⟨hlow, hhigh⟩, hbyte]
    simp [hemit, h.sent, Terminal.write, Terminal.record, Event.sent?]
  flush {p t} h := by
    refine ⟨Port.simulation.flush h.shows, ?_⟩
    show (p.own.stdout.push .flushed).toList = _
    simp [h.sent, Terminal.flush, Terminal.record, Event.sent?]
  resetCodes h := ⟨Port.simulation.resetCodes h.shows, h.sent⟩

end LittleComputer
