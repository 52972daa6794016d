import Mathlib.Data.List.DropRight
import LittleComputer.Proofs.Banks
import LittleComputer.Proofs.Devices
import LittleComputer.Proofs.Ports

/-!
# Ports and what has been asked of them

However a port is used, its input is given out in order, its output is what has been written, and
the last codes are those of the last read and the last write since they were forgotten.

* `Port.after`, `Port.reads`, `Port.writes`, `Port.sinceReset` — a port after some operations, and
  what these operations come to.
* `Port.Follows`, `Port.Follows.perform` — a port that has come this far, kept by **every
  operation**; `Port.Follows.after` — and so by every sequence of them.
* `Port.Serves`, `Port.Follows.serves` — what is seen of a buffer that has come this far.
* `Port.Mirrors`, `Port.Follows.mirrors` — and of a console and a buffer that both have.
* `Port.serves_and_mirrors_after` — **buffers serve their input, and consoles mirror buffers.**
-/

namespace LittleComputer.Port

open Visible (seen)

/-! ## Sequences of operations -/

/-- The port after some operations, granted or not. -/
def after {σ : Type} [Provider σ] (p : Port σ) (operations : List Operation) : Port σ :=
  operations.foldl (fun p operation => (p.perform operation).2) p

/-- How many of the operations are reads. -/
def reads (operations : List Operation) : Nat := operations.count .read

/-- The code that an operation writes, if it writes one. -/
def Operation.written? : Operation → Option Int
  | .write code => some code
  | _ => none

/-- The codes that operations write, in order. -/
def writes (operations : List Operation) : List Int := operations.filterMap Operation.written?

/-- The operations since the last codes were forgotten. -/
def sinceReset (operations : List Operation) : List Operation :=
  operations.rtakeWhile (· ≠ .resetCodes)

/-- What the last read since then has given, if there was one; the last of `n` reads is the one
numbered `n - 1`. -/
def lastRead? (input : Memory.Input) (operations : List Operation) : Option Nat :=
  if .read ∈ sinceReset operations then Memory.found? (some input) (reads operations - 1) else none

/-- What has been written last since then. -/
def lastWritten? (operations : List Operation) : Option Int :=
  (writes (sinceReset operations)).getLast?

theorem after_concat {σ : Type} [Provider σ] (p : Port σ) (operations : List Operation)
    (operation : Operation) :
    p.after (operations ++ [operation]) = ((p.after operations).perform operation).2 := by
  rw [after, List.foldl_append]
  rfl

theorem reads_concat (operations : List Operation) (operation : Operation) :
    reads (operations ++ [operation]) =
      if operation = .read then reads operations + 1 else reads operations := by
  rw [reads, List.count_append, List.count_singleton]
  by_cases h : operation = .read
  · simp only [h, beq_self_eq_true, if_true, reads]
  · simp only [beq_eq_false_iff_ne.2 h, Bool.false_eq_true, if_false, h, Nat.add_zero, reads]

theorem writes_concat (operations : List Operation) (operation : Operation) :
    writes (operations ++ [operation]) = writes operations ++ operation.written?.toList := by
  rw [writes, List.filterMap_append]
  cases operation <;> rfl

theorem sinceReset_concat (operations : List Operation) {operation : Operation}
    (h : operation ≠ .resetCodes) :
    sinceReset (operations ++ [operation]) = sinceReset operations ++ [operation] :=
  List.rtakeWhile_concat_pos _ _ _ (decide_eq_true h)

theorem sinceReset_resetCodes (operations : List Operation) :
    sinceReset (operations ++ [.resetCodes]) = [] :=
  List.rtakeWhile_concat_neg _ _ _ (by decide)

/-- Only reads and resets change what was read last. -/
theorem lastRead?_concat (input : Memory.Input) (operations : List Operation)
    {operation : Operation} (hread : operation ≠ .read) (hreset : operation ≠ .resetCodes) :
    lastRead? input (operations ++ [operation]) = lastRead? input operations := by
  have hmem : .read ∈ sinceReset operations ++ [operation] ↔ .read ∈ sinceReset operations := by
    simp [hread.symm]
  simp only [lastRead?, sinceReset_concat operations hreset, hmem, reads_concat, if_neg hread]

theorem lastRead?_read (input : Memory.Input) (operations : List Operation) :
    lastRead? input (operations ++ [.read]) = Memory.found? (some input) (reads operations) := by
  rw [lastRead?, sinceReset_concat operations (by decide), if_pos (by simp), reads_concat,
    if_pos rfl, Nat.add_sub_cancel]

/-- What is written last is the last code written. -/
theorem lastWritten?_concat (operations : List Operation) {operation : Operation}
    (h : operation ≠ .resetCodes) :
    lastWritten? (operations ++ [operation]) = operation.written?.or (lastWritten? operations) := by
  rw [lastWritten?, sinceReset_concat operations h, writes_concat, List.getLast?_append]
  cases operation.written? <;> rfl

/-! ## Single operations -/

section Operations

variable {σ : Type} [Provider σ] [Visible σ] {p : Port σ} {input : Memory.Input}
  {operations : List Operation}

/-- What a read gives: the next character, or what the end of the input gives. -/
def given (s : Seen) (strict : Bool) : Except Break Nat :=
  match s.pending with
  | code :: _ => .ok code
  | [] => ending s.interrupts strict

/-- A read takes a character, if there is one, and the last code is the one it gave. -/
theorem readChar_eq (p : Port σ) :
    ∃ own, p.readChar = (given (seen p.own) p.strict,
        ⟨own, p.strict, (given (seen p.own) p.strict).toOption, p.lastOut⟩) ∧
      seen own = (seen p.own).rest := by
  cases hpending : (seen p.own).pending with
  | cons code rest =>
      obtain ⟨own, hread, hseen⟩ := p.readChar_of_cons hpending
      refine ⟨own, ?_, hseen⟩
      rw [hread, given, hpending]
      rfl
  | nil =>
      obtain ⟨own, hread, hseen⟩ := p.readChar_of_nil hpending
      refine ⟨own, ?_, ?_⟩
      · rw [hread, given, hpending]
      · rw [hseen, Seen.rest, hpending, List.tail_nil, ← hpending]

/-- `p.Follows input operations` : the port `p` was given the input, and these operations have been
asked of it. -/
structure Follows (p : Port σ) (input : Memory.Input) (operations : List Operation) : Prop where
  /-- A read past the end of the input is a fault, or it is none. -/
  strict : p.strict = input.strict
  /-- No one interrupts it. -/
  interrupts : (seen p.own).interrupts = false
  /-- Each read has taken a character, if there was one. -/
  pending : (seen p.own).pending = input.codes.drop (reads operations)
  /-- Each write has put out the low byte of its code. -/
  written : (seen p.own).written = (writes operations).map fun code => (code % 256).toNat
  /-- What was read last. -/
  lastIn : p.lastIn = lastRead? input operations
  /-- What was written last. -/
  lastOut : p.lastOut = (lastWritten? operations).map (· % 256)

/-- What a read gives is what the input has at that place. -/
theorem Follows.given_eq (h : p.Follows input operations) :
    given (seen p.own) p.strict = (match Memory.found? (some input) (reads operations) with
      | some code => .ok code
      | none => .error (.stop (.fault .inputUnderflow))) := by
  have hfirst : (seen p.own).pending.head? = input.codes[reads operations]? := by
    rw [h.pending, List.head?_drop]
  simp only [Memory.found?, ← hfirst, given]
  cases hpending : (seen p.own).pending with
  | cons code rest => rfl
  | nil =>
      simp only [ending, h.interrupts, h.strict]
      cases input.strict <;> rfl

/-- An operation that takes and puts out nothing can only concern the last codes. -/
theorem Follows.unseen (h : p.Follows input operations) {q : Port σ} {operation : Operation}
    (hread : operation ≠ .read) (hwrite : operation.written? = none) (hstrict : q.strict = p.strict)
    (hseen : seen q.own = seen p.own)
    (hin : q.lastIn = lastRead? input (operations ++ [operation]))
    (hout : q.lastOut = (lastWritten? (operations ++ [operation])).map (· % 256)) :
    q.Follows input (operations ++ [operation]) := by
  constructor
  case strict => rw [hstrict]; exact h.strict
  case interrupts => rw [hseen]; exact h.interrupts
  case pending => rw [hseen, reads_concat, if_neg hread]; exact h.pending
  case written =>
    rw [hseen, writes_concat, hwrite, Option.toList_none, List.append_nil]
    exact h.written
  case lastIn => exact hin
  case lastOut => exact hout

/-- **Every operation does what it says**, and nothing else. -/
theorem Follows.perform (h : p.Follows input operations) (operation : Operation) :
    (p.perform operation).2.Follows input (operations ++ [operation]) := by
  -- only reads and resets concern the last code in, only writes and resets the last code out
  have hin : operation ≠ .read → operation ≠ .resetCodes →
      p.lastIn = lastRead? input (operations ++ [operation]) := by
    intro hread hreset
    rw [lastRead?_concat input operations hread hreset]
    exact h.lastIn
  have hout : operation.written? = none → operation ≠ .resetCodes →
      p.lastOut = (lastWritten? (operations ++ [operation])).map (· % 256) := by
    intro hwrite hreset
    rw [lastWritten?_concat operations hreset, hwrite]
    exact h.lastOut
  cases operation with
  | read =>
      obtain ⟨own, hread, hseen⟩ := p.readChar_eq
      simp only [Port.perform, hread]
      constructor
      case strict => exact h.strict
      case interrupts => rw [hseen]; exact h.interrupts
      case pending => rw [hseen, Seen.rest, h.pending, List.tail_drop, reads_concat, if_pos rfl]
      case written =>
        rw [hseen, writes_concat]
        exact h.written.trans (congrArg _ (List.append_nil _).symm)
      case lastIn =>
        -- what the read gives is both the reply and the last code
        rw [h.given_eq, lastRead?_read]
        cases Memory.found? (some input) (reads operations) <;> rfl
      case lastOut => exact hout rfl (by simp)
  | write code =>
      obtain ⟨own, hwrite, hseen⟩ := p.writeChar_eq code
      simp only [Port.perform, hwrite]
      constructor
      case strict => exact h.strict
      case interrupts => rw [hseen]; exact h.interrupts
      case pending => rw [hseen, reads_concat, if_neg (by simp)]; exact h.pending
      case written => rw [hseen, writes_concat, List.map_append, ← h.written]; rfl
      case lastIn => exact hin (by simp) (by simp)
      case lastOut => rw [lastWritten?_concat operations (by simp)]; rfl
  | flush =>
      exact h.unseen (by simp) rfl rfl p.seen_flush (hin (by simp) (by simp)) (hout rfl (by simp))
  | output => exact h.unseen (by simp) rfl rfl rfl (hin (by simp) (by simp)) (hout rfl (by simp))
  | resetCodes =>
      refine h.unseen (by simp) rfl rfl rfl ?_ ?_
      · rw [lastRead?, sinceReset_resetCodes]
        rfl
      · rw [lastWritten?, sinceReset_resetCodes]
        rfl

/-- **So does every sequence of them.** -/
theorem Follows.after (h : p.Follows input []) (operations : List Operation) :
    (p.after operations).Follows input operations := by
  induction operations using List.reverseRecOn with
  | nil => exact h
  | append_singleton operations operation ih =>
      rw [after_concat]
      exact ih.perform operation

end Operations

/-- Fresh ports follow no operations. -/
theorem follows_buffer (codes : List Nat) (strict : Bool) :
    (buffer codes strict).Follows ⟨codes, strict⟩ [] :=
  ⟨rfl, rfl, rfl, rfl, rfl, rfl⟩

theorem follows_console (bytes : List Byte) (strict : Bool) :
    (console bytes strict).Follows ⟨bytes.map BitVec.toNat, strict⟩ [] :=
  ⟨rfl, rfl, rfl, rfl, rfl, rfl⟩

/-- The second character is not there. -/
example : lastRead? ⟨[65], true⟩ [.resetCodes, .read, .write 321] = some 65 ∧
    lastWritten? [.resetCodes, .read, .write 321] = some 321 ∧
    lastRead? ⟨[65], true⟩ [.read, .write 321, .read] = none := by decide

/-! ## What is seen of a buffer -/

/-- A buffer that has come to its end is left as it is. -/
theorem next_of_nil {b : Buffer} (h : (seen b).pending = []) : b.next = (.ok none, b) := by
  have hend : ¬ b.position < b.input.size := by
    have hlength : (b.input.toList.drop b.position).length = 0 := congrArg List.length h
    rw [List.length_drop, Array.length_toList] at hlength
    omega
  rw [Buffer.next, dif_neg hend]

/-- A buffer over the input, of which some operations have been asked, serves whoever uses it. -/
structure Serves (p : Port Buffer) (input : Memory.Input) (operations : List Operation) : Prop where
  /-- A read gives the code after those that were read before, or what the end of the input
  gives. -/
  read : ∀ code, Memory.found? (some input) (reads operations) = some code →
    (p.perform .read).1 = .ok (.code code)
  /-- Where it gives none, it stops, and only the last code is forgotten: the place in the input and
  the output are as they were. -/
  underflow : Memory.found? (some input) (reads operations) = none → ∃ q,
    p.perform .read = (.error (.stop (.fault .inputUnderflow)), q) ∧ q.lastIn = none ∧
      q.lastOut = p.lastOut ∧ q.own = p.own
  /-- As many characters have been taken as there were reads, while there were any. -/
  pending : p.own.input.toList.drop p.own.position = input.codes.drop (reads operations)
  /-- The output is what has been written, each code modulo 256; showing it changes nothing. -/
  output : ∃ codes : List Nat, p.perform .output = (.ok (.text codes), p) ∧
    codes.map Int.ofNat = (writes operations).map (· % 256)
  /-- The other operations have nothing to say. -/
  quiet : (∀ code, (p.perform (.write code)).1 = .ok .done) ∧ (p.perform .flush).1 = .ok .done ∧
    (p.perform .resetCodes).1 = .ok .done
  /-- The last code in is what the last read has given since the codes were forgotten. -/
  lastIn : p.lastIn = lastRead? input operations
  /-- The last code out is what the last write has written since then. -/
  lastOut : p.lastOut = (lastWritten? operations).map (· % 256)

/-- No write is refused. -/
theorem perform_write {σ : Type} [Provider σ] [Visible σ] (p : Port σ) (code : Int) :
    (p.perform (.write code)).1 = .ok .done := by
  obtain ⟨own, hwrite, -⟩ := p.writeChar_eq code
  simp only [Port.perform, hwrite]
  rfl

/-- What a read replies. -/
theorem perform_read {σ : Type} [Provider σ] [Visible σ] (p : Port σ) :
    (p.perform .read).1 = (given (seen p.own) p.strict).map .code := by
  obtain ⟨own, hread, -⟩ := p.readChar_eq
  simp only [Port.perform, hread]

/-- A buffer that has come this far serves. -/
theorem Follows.serves {p : Port Buffer} {input : Memory.Input} {operations : List Operation}
    (h : p.Follows input operations) : p.Serves input operations := by
  constructor
  case read =>
    intro code hfound
    rw [perform_read, h.given_eq, hfound]
    rfl
  case underflow =>
    intro hfound
    have hgiven := h.given_eq
    rw [hfound] at hgiven
    have hpending : (seen p.own).pending = [] := by
      cases hpending : (seen p.own).pending with
      | nil => rfl
      | cons code rest =>
          rw [given, hpending] at hgiven
          cases hgiven
    have hstrict : p.strict = true := by
      rw [given, hpending] at hgiven
      cases hstrict : p.strict with
      | true => rfl
      | false =>
          rw [hstrict] at hgiven
          cases hgiven
    obtain ⟨own, strict, lastIn, lastOut⟩ := p
    dsimp only at hpending hstrict
    subst hstrict
    have hnext : Provider.next own = (.ok none, own) := next_of_nil hpending
    refine ⟨⟨own, true, none, lastOut⟩, ?_, rfl, rfl, rfl⟩
    simp only [Port.perform, readChar, hnext, if_true]
    rfl
  case pending => exact h.pending
  case output =>
    refine ⟨p.own.emitted.toList, rfl, ?_⟩
    have hwritten : p.own.emitted.toList = _ := h.written
    rw [hwritten, List.map_map]
    refine List.map_congr_left fun code _ => ?_
    exact Int.toNat_of_nonneg (Int.emod_nonneg code (by decide))
  case quiet => exact ⟨p.perform_write, rfl, rfl⟩
  case lastIn => exact h.lastIn
  case lastOut => exact h.lastOut

/-! ## Consoles -/

/-- A console does as a buffer does. -/
structure Mirrors (c : Port Console) (b : Port Buffer) : Prop where
  /-- Whatever is asked of them, they give the same, -/
  replies : ∀ operation, operation ≠ .output → (c.perform operation).1 = (b.perform operation).1
  /-- but the console has no output to show, -/
  output : c.perform .output = (.ok (.text []), c)
  /-- as all has gone out that the buffer holds. -/
  written : c.own.written.map BitVec.toNat = b.output
  /-- The last code in is the same. -/
  lastIn : c.lastIn = b.lastIn
  /-- The last code out is the same. -/
  lastOut : c.lastOut = b.lastOut
  /-- So is what is left of the input. -/
  pending : c.own.stdin.map BitVec.toNat = b.own.input.toList.drop b.own.position

/-- A console and a buffer that have come equally far do the same. -/
theorem Follows.mirrors {c : Port Console} {b : Port Buffer} {input : Memory.Input}
    {operations : List Operation} (h : c.Follows input operations)
    (h' : b.Follows input operations) : c.Mirrors b := by
  constructor
  case replies =>
    intro operation hother
    cases operation with
    | read => rw [perform_read, perform_read, h.given_eq, h'.given_eq]
    | write code => rw [perform_write, perform_write]
    | flush => rfl
    | output => exact absurd rfl hother
    | resetCodes => rfl
  case output => rfl
  case written => exact h.written.trans h'.written.symm
  case lastIn => exact h.lastIn.trans h'.lastIn.symm
  case lastOut => exact h.lastOut.trans h'.lastOut.symm
  case pending => exact h.pending.trans h'.pending.symm

/-- **Buffers serve their input, and consoles mirror buffers.**  Whatever has been asked of a
buffer, the reads among the operations have given the codes of its input one after the other, its
output is what the writes have written, and the last codes are those since they were forgotten; and
whatever has been asked of a console over some bytes, it has done the same as a buffer over these
bytes as text. -/
theorem serves_and_mirrors_after (strict : Bool) (operations : List Operation) :
    (∀ codes, ((buffer codes strict).after operations).Serves ⟨codes, strict⟩ operations) ∧
    ∀ bytes, ((console bytes strict).after operations).Mirrors
      ((buffer ((Text.ofBytes bytes).toList.map Char.toNat) strict).after operations) := by
  constructor
  · intro codes
    exact ((follows_buffer codes strict).after operations).serves
  · intro bytes
    rw [Text.codes_ofBytes]
    have hconsole := (follows_console bytes strict).after operations
    have hbuffer := (follows_buffer (bytes.map BitVec.toNat) strict).after operations
    exact hconsole.mirrors hbuffer

end LittleComputer.Port
