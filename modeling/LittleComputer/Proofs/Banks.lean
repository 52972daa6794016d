import LittleComputer.Memory.Bank
import LittleComputer.Proofs.Layers
import LittleComputer.Proofs.Traces

/-!
# Memory banks and what has been stored in them

However a memory bank is used, a cell holds what was stored there last.  Three requests store: a
write one word, a load as many as fit, and a read of the keyboard status register marks that
register and puts what the keyboard gives next to it.  All other requests only look.

* `Memory.Input`, `Memory.found?` — the keyboard of a bank, and what it gives the `k`-th time.
* `Memory.Request.stores`, `Memory.history` — **what requests store**, in order and unreduced.
* `Memory.Bank.Follows`, `Memory.Bank.follows_perform` — a bank that has come this far, kept by
  every request.
* `Memory.Bank.Refines`, `Memory.Bank.refines_history` — what is seen of such a bank is a finite
  map, given by the values that were stored last.
-/

namespace LittleComputer

namespace Memory

/-! ## Keyboards -/

/-- The characters that can be typed, and whether it is a fault to ask for more. -/
structure Input where
  /-- The codes of the characters. -/
  codes : List Nat
  /-- Whether it is a fault to ask for more. -/
  strict : Bool
  deriving DecidableEq, Repr

/-- The terminal that gives these characters. -/
def Input.terminal (input : Input) : Terminal := .buffer input.codes (.ofStrict input.strict)

/-- What the status register finds the `k`-th time, counted from zero: the code that it moves to the
data register, or none where it is a fault to ask.  Without a keyboard the input has ended. -/
def found? (input : Option Input) (k : Nat) : Option Nat :=
  match input with
  | none => some 0xFFFF
  | some input =>
    match input.codes[k]? with
    | some code => some code
    | none => if input.strict then none else some 0xFFFF

/-! ## Stores -/

/-- Whether a request reads the keyboard status register. -/
def Request.asks : Request → Bool
  | .read address => address % 65536 = 0xFE00
  | _ => false

/-- A request only looks if it is no write, no load and no read of the status register. -/
def Request.Looks : Request → Prop
  | .read address => address % 65536 ≠ 0xFE00
  | .write _ _ | .load _ _ => False
  | _ => True

/-- What a request stores, as pairs of an address and a value, if the status register would find the
given code. -/
def Request.stores (found : Option Nat) : Request → List (Int × Int)
  | .read address =>
    if address % 65536 = 0xFE00 then
      (0xFE00, 0x8000) :: found.toList.map fun code => (0xFE02, (code : Int))
    else []
  | .write address word => [(address, word)]
  | .load origin words => Image.placed ⟨origin, words⟩
  | _ => []

/-- What requests store, one after the other, after `k` reads of the status register. -/
def history (input : Option Input) : (k : Nat) → List Request → List (Int × Int)
  | _, [] => []
  | k, request :: requests =>
    request.stores (found? input k) ++ history input (k + request.asks.toNat) requests

/-- The value that was stored last at an address, or else the initial one; only residues count. -/
def lastValue (initial : Assignments) (stores : List (Int × Int)) (address : Int) : Int :=
  match stores.reverse.find? fun e => e.1 % 65536 = address % 65536 with
  | some e => e.2 % 65536
  | none => initial.startValue (Word.ofInt address)

namespace Bank

/-- A bank that holds initial values, with a keyboard or without one. -/
def start (initial : Assignments) (input : Option Input) : Bank where
  memory := empty.assign initial.entries
  keyboard := input.map Input.terminal

/-- The bank after some requests, granted or not. -/
def after (b : Bank) (requests : List Request) : Bank :=
  requests.foldl (fun b request => (b.perform request).2) b

/-! ## The keyboard -/

/-- `Left input k keyboard` : the keyboard is there if the input is, and `k` requests have been made
of it. -/
def Left (input : Option Input) (k : Nat) (keyboard : Option Terminal) : Prop :=
  match input with
  | none => keyboard = none
  | some input => ∃ t, keyboard = some t ∧ t.pending = input.codes.drop k ∧
      t.atEnd = .ofStrict input.strict

theorem left_start (input : Option Input) : Left input 0 (input.map Input.terminal) := by
  cases input with
  | none => rfl
  | some input => exact ⟨_, rfl, rfl, rfl⟩

/-- A keyboard gives the codes of the input one after the other. -/
theorem receive_of_left {input : Option Input} {k : Nat} {keyboard : Option Terminal}
    (h : Left input k keyboard) :
    (receive keyboard).1 = (match found? input k with
      | some code => .ok code
      | none => .error (.fault .inputUnderflow)) ∧
    Left input (k + 1) (receive keyboard).2 := by
  cases input with
  | none =>
      cases h
      exact ⟨rfl, rfl⟩
  | some input =>
      obtain ⟨t, rfl, hpending, hend⟩ := h
      have hrest : t.read.2.pending = input.codes.drop (k + 1) := by
        rw [t.pending_read, hpending, List.tail_drop]
      refine ⟨?_, t.read.2, rfl, hrest, t.atEnd_read.trans hend⟩
      show t.read.1 = _
      unfold Terminal.read found?
      rw [hpending]
      cases hcodes : input.codes.drop k with
      | nil =>
          have hnone : input.codes[k]? = none := by rw [← List.head?_drop, hcodes]; rfl
          simp only [hnone, Terminal.record, hend]
          cases input.strict <;> rfl
      | cons code rest =>
          have hsome : input.codes[k]? = some code := by rw [← List.head?_drop, hcodes]; rfl
          simp only [hsome]

/-! ## Single requests -/

theorem ofInt_eq_keyboardStatus_iff (address : Int) :
    Word.ofInt address = keyboardStatus ↔ address % 65536 = 0xFE00 :=
  Word.ofInt_eq_iff address keyboardStatus

/-- Elsewhere than at the status register, reading is looking. -/
theorem perform_read_of_ne (b : Bank) {address : Int} (h : address % 65536 ≠ 0xFE00) :
    b.perform (.read address) = (.ok (.word (b.memory.peek (Word.ofInt address))), b) := by
  have hne := mt (ofInt_eq_keyboardStatus_iff address).1 h
  simp only [perform, read_of_ne receive b.memory b.keyboard hne]

/-- Reading the status register. -/
theorem perform_read_of_eq {b : Bank} {input : Option Input} {k : Nat} {address : Int}
    (h : Left input k b.keyboard) (ha : address % 65536 = 0xFE00) :
    b.perform (.read address) = match found? input k with
      | some code => (.ok (.word keyboardReady),
          ⟨(b.memory.poke keyboardStatus keyboardReady).poke keyboardData (BitVec.ofNat 16 code),
            (receive b.keyboard).2⟩)
      | none => (.error (.fault .inputUnderflow),
          ⟨b.memory.poke keyboardStatus keyboardReady, (receive b.keyboard).2⟩) := by
  have hk := (ofInt_eq_keyboardStatus_iff address).2 ha
  obtain ⟨hgiven, -⟩ := receive_of_left h
  rcases hreceive : receive b.keyboard with ⟨result, keyboard⟩
  rw [hreceive] at hgiven
  dsimp only at hgiven
  cases hfound : found? input k with
  | some code =>
      rw [hfound] at hgiven
      subst hgiven
      simp only [perform, hk, read_keyboardStatus receive b.memory hreceive]
  | none =>
      rw [hfound] at hgiven
      subst hgiven
      simp only [perform, read, hk, if_true, hreceive]

/-- `b.Follows input k m` : the bank holds the memory `m`, and its status register has been read `k`
times. -/
structure Follows (b : Bank) (input : Option Input) (k : Nat) (m : Memory) : Prop where
  /-- Its cells. -/
  memory : b.memory = m
  /-- Its keyboard. -/
  keyboard : Left input k b.keyboard

/-- What fits of a load is what it stores. -/
theorem assign_placed (m : Memory) (origin : Int) (words : List Int) :
    m.assign (Image.placed ⟨origin, words⟩) = (m.load origin words).2 := by
  have hsame : (Image.placed ⟨origin, words⟩).map (fun e => (e.1 % 65536, e.2)) =
      Image.placed ⟨origin, words⟩ := by
    refine (List.map_congr_left ?_).trans (List.map_id _)
    rintro ⟨address, word⟩ hcell
    obtain ⟨i, -, hfits, rfl⟩ := Image.mem_placed_iff.1 hcell
    have hcount : wordCount = 65536 := rfl
    rw [id, Prod.mk.injEq]
    exact ⟨by omega, rfl⟩
  have hsupplied : Image.Supplied ⟨origin, words⟩ (Image.placed ⟨origin, words⟩) := .of_eq hsame
  exact hsupplied.assign_eq m

/-- **Every request stores what it says**, and asks the keyboard if it says so. -/
theorem follows_perform {b : Bank} {input : Option Input} {k : Nat} {m : Memory}
    (h : b.Follows input k m) (request : Request) :
    (b.perform request).2.Follows input (k + request.asks.toNat)
      (m.assign (request.stores (found? input k))) := by
  obtain ⟨rfl, hkeyboard⟩ := h
  cases request with
  | read address =>
      by_cases ha : address % 65536 = 0xFE00
      · have hasks : (Request.read address).asks.toNat = 1 := by simp [Request.asks, ha]
        obtain ⟨-, hnext⟩ := receive_of_left hkeyboard
        rw [perform_read_of_eq hkeyboard ha, hasks, Request.stores, if_pos ha]
        cases found? input k with
        | some code => exact ⟨rfl, hnext⟩
        | none => exact ⟨rfl, hnext⟩
      · have hasks : (Request.read address).asks.toNat = 0 := by simp [Request.asks, ha]
        rw [perform_read_of_ne b ha, hasks, Request.stores, if_neg ha]
        exact ⟨rfl, hkeyboard⟩
  | load origin words => exact ⟨(assign_placed b.memory origin words).symm, hkeyboard⟩
  | write _ _ | peek _ | watched _ | snapshot | size => exact ⟨rfl, hkeyboard⟩

/-! ## Sequences of requests -/

/-- **Requests store what they say**, one after the other. -/
theorem follows_after {b : Bank} {input : Option Input} {k : Nat} {m : Memory}
    (h : b.Follows input k m) (requests : List Request) :
    (b.after requests).Follows input (k + requests.countP Request.asks)
      (m.assign (history input k requests)) := by
  induction requests generalizing b k m with
  | nil => exact h
  | cons request requests ih =>
      have hrest := ih (follows_perform h request)
      rw [history, assign_append, List.countP_cons]
      have hcount : k + (requests.countP Request.asks + if request.asks then 1 else 0) =
          k + request.asks.toNat + requests.countP Request.asks := by
        cases request.asks <;> simp; omega
      rw [hcount]
      exact hrest

/-- The second character is not there, and the second word does not fit. -/
example : history (some ⟨[65], true⟩) 0
    [.read 0xFE00, .write (-1) 70000, .read (-512), .watched [7], .load 0xFFFF [1, 2]] =
      [(0xFE00, 0x8000), (0xFE02, 65), (-1, 70000), (0xFE00, 0x8000), (0xFFFF, 1)] := by decide

theorem follows_start (initial : Assignments) (input : Option Input) :
    (start initial input).Follows input 0 (empty.assign initial.entries) :=
  ⟨rfl, left_start input⟩

/-- What has been stored last is what is found, over the initial values. -/
theorem peek_assign_stores (initial : Assignments) (stores : List (Int × Int)) (address : Int) :
    ((((empty.assign initial.entries).assign stores).peek (Word.ofInt address)).toNat : Int) =
      lastValue initial stores address := by
  rw [peek_assign, lastValue]
  simp only [Word.ofInt_eq_iff, Word.cast_toNat_ofInt]
  cases stores.reverse.find? fun e => e.1 % 65536 = address % 65536 with
  | some e => exact Word.cast_toNat_ofInt e.2
  | none => exact peek_assign_empty initial (Word.ofInt address)

/-! ## What is seen of a bank -/

/-- A bank that has been given initial values and these stores, and whose status register has been
read `k` times, looks like a finite map to whoever uses it. -/
structure Refines (b : Bank) (initial : Assignments) (input : Option Input)
    (stores : List (Int × Int)) (k : Nat) : Prop where
  /-- A cell holds what was stored there last, or else its initial value. -/
  peek : ∀ address, ∃ w, b.perform (.peek address) = (.ok (.word w), b) ∧
    (w.toNat : Int) = lastValue initial stores address
  /-- Elsewhere than at the status register, reading is looking. -/
  read : ∀ address, address % 65536 ≠ 0xFE00 →
    b.perform (.read address) = b.perform (.peek address)
  /-- What only looks changes nothing and takes no character. -/
  quiet : ∀ request, request.Looks → (b.perform request).2 = b
  /-- As many characters have been taken as there were reads of the status register, while there
  were any. -/
  keyboard : Left input k b.keyboard
  /-- Where the status register finds a code, it gives the ready word and moves the code to the data
  register; no other cell changes. -/
  found : ∀ address code, address % 65536 = 0xFE00 → found? input k = some code →
    ∃ b', b.perform (.read address) = (.ok (.word 0x8000), b') ∧ b'.memory.peek =
      Function.update (Function.update b.memory.peek 0xFE00 0x8000) 0xFE02 (BitVec.ofNat 16 code)
  /-- Where it is a fault to ask, only the status register has been written. -/
  fault : ∀ address, address % 65536 = 0xFE00 → found? input k = none →
    ∃ b', b.perform (.read address) = (.error (.fault .inputUnderflow), b') ∧
      b'.memory.peek = Function.update b.memory.peek 0xFE00 0x8000
  /-- A load stores and reports as many words as fit before the end of the address space, each at
  its place. -/
  load : ∀ origin words, ∃ b', b.perform (.load origin words) =
      (.ok (.count (min words.length (65536 - (origin % 65536).toNat))), b') ∧
    b'.keyboard = b.keyboard ∧ ∀ a : Word, b'.memory.peek a =
      if h : (origin % 65536).toNat ≤ a.toNat ∧
          a.toNat - (origin % 65536).toNat < words.length then
        Word.ofInt words[a.toNat - (origin % 65536).toNat]
      else b.memory.peek a
  /-- A watch list shows the cells whose addresses are in it as they stand, each once. -/
  watched : ∀ addresses, ∃ cells, b.perform (.watched addresses) = (.ok (.watched cells), b) ∧
    (cells.map Prod.fst).Nodup ∧
    ∀ a w, (a, w) ∈ cells ↔ (a.toNat : Int) ∈ addresses ∧ w = b.memory.peek a

/-- Writing a cell is updating a map. -/
theorem peek_poke_eq_update (m : Memory) (a w : Word) :
    (m.poke a w).peek = Function.update m.peek a w := by
  funext b
  rw [peek_poke, Function.update_apply]
  simp only [eq_comm]

/-- A bank that has come this far looks like a map. -/
theorem Follows.refines {b : Bank} {initial : Assignments} {input : Option Input}
    {stores : List (Int × Int)} {k : Nat}
    (h : b.Follows input k ((empty.assign initial.entries).assign stores)) :
    b.Refines initial input stores k := by
  constructor
  case peek =>
    intro address
    refine ⟨_, rfl, ?_⟩
    rw [h.memory]
    exact peek_assign_stores initial stores address
  case read =>
    intro address ha
    exact perform_read_of_ne b ha
  case quiet =>
    intro request hlooks
    cases request with
    | read address => rw [perform_read_of_ne b hlooks]
    | write _ _ | load _ _ => exact hlooks.elim
    | peek _ | watched _ | snapshot | size => rfl
  case keyboard => exact h.keyboard
  case found =>
    intro address code ha hfound
    rw [perform_read_of_eq h.keyboard ha, hfound]
    refine ⟨_, rfl, ?_⟩
    rw [peek_poke_eq_update, peek_poke_eq_update]
    rfl
  case fault =>
    intro address ha hfound
    rw [perform_read_of_eq h.keyboard ha, hfound]
    exact ⟨_, rfl, peek_poke_eq_update _ _ _⟩
  case load =>
    intro origin words
    simp only [← Word.toNat_ofInt]
    refine ⟨⟨(b.memory.load origin words).2, b.keyboard⟩, ?_, rfl,
      fun a => peek_load b.memory origin words a⟩
    have hcount : (b.memory.load origin words).1 =
        min words.length (65536 - (Word.ofInt origin).toNat) := by
      rw [Memory.load, List.length_take, Nat.min_comm]
      rfl
    rw [← hcount]
    rfl
  case watched =>
    intro addresses
    refine ⟨_, rfl, ?_, fun a w => mem_watched_iff _ _ _ _⟩
    have hkeys : (b.memory.watched addresses).map Prod.fst = watchable addresses := by
      rw [Memory.watched, List.map_map]
      exact List.map_id _
    rw [hkeys]
    exact nodup_watchable addresses

/-- **Memory is a finite map.**  Whatever has been requested of a bank, and with whatever keyboard,
its cells hold the values that were stored last, and only what stores changes them.  The reads of
the keyboard status register among the requests have moved the codes of the input to the data
register, one after the other; the next one finds the next code, or fails where there is none and it
should. -/
theorem refines_history (initial : Assignments) (input : Option Input) (requests : List Request) :
    ((start initial input).after requests).Refines initial input (history input 0 requests)
      (requests.countP Request.asks) := by
  have h := follows_after (follows_start initial input) requests
  rw [Nat.zero_add] at h
  exact h.refines

end Bank

end Memory

end LittleComputer
