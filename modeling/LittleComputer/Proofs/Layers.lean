import LittleComputer.Proofs.ImageFormat
import LittleComputer.Proofs.Runs
import Mathlib.Data.List.Nodup

/-!
# What memory holds at the start

Memory is filled in two passes.  The initial values come first: their keys are reduced, so that
different keys can stand for one address, and the last of them wins.  Then the image is loaded over
them: its words do not go round the end of the address space but are dropped there.

* `Memory.peek_assign` — the last value for an address wins.
* `Image.startWord`, `Session.peek_start` — **what memory holds at the start**: words of the image
  over initial values over zeros.
* `Image.Supplied`, `Image.Supplied.assign_eq` — words can be given as values instead;
  `Image.exists_supplied` — there are always fresh keys for them.
* `run_starting` — runs that start alike are alike.
* `run_residue`, `run_supplied`, `run_of_parse` — what makes no difference to a run.
* `run_layered` — **what a program starts with, and what of it counts**.
-/

namespace LittleComputer

/-! ## Initial values -/

namespace Memory

/-- **The last value wins** among those whose keys stand for one address. -/
theorem peek_assign (m : Memory) (entries : List (Int × Int)) (a : Word) :
    (m.assign entries).peek a =
      match entries.reverse.find? fun e => Word.ofInt e.1 = a with
      | some e => Word.ofInt e.2
      | none => m.peek a := by
  induction entries using List.reverseRecOn with
  | nil => rfl
  | append_singleton entries e ih =>
      have hlast : m.assign (entries ++ [e]) =
          (m.assign entries).poke (Word.ofInt e.1) (Word.ofInt e.2) := by
        rw [assign, List.foldl_append]
        rfl
      rw [hlast, peek_poke, List.reverse_append, List.reverse_singleton, List.singleton_append,
        List.find?_cons]
      by_cases hkey : Word.ofInt e.1 = a
      · simp only [hkey, if_true, decide_true]
      · rw [if_neg hkey, ih]
        simp only [hkey, decide_false]

/-- An address that no key stands for keeps its word. -/
theorem peek_assign_of_notMem {m : Memory} {entries : List (Int × Int)} {a : Word}
    (h : ∀ e ∈ entries, Word.ofInt e.1 ≠ a) : (m.assign entries).peek a = m.peek a := by
  have hnone : entries.reverse.find? (fun e => Word.ofInt e.1 = a) = none := by
    rw [List.find?_eq_none]
    intro e he
    rw [List.mem_reverse] at he
    simp [h e he]
  rw [peek_assign, hnone]

/-- An address that keys with only one value stand for has that value. -/
theorem peek_assign_of_mem {m : Memory} {entries : List (Int × Int)} {a : Word} {e : Int × Int}
    (he : e ∈ entries) (hkey : Word.ofInt e.1 = a)
    (honly : ∀ e' ∈ entries, Word.ofInt e'.1 = a → e'.2 = e.2) :
    (m.assign entries).peek a = Word.ofInt e.2 := by
  rw [peek_assign]
  split
  · rename_i e' hfind
    have hmem := List.mem_reverse.1 (List.mem_of_find?_eq_some hfind)
    have hsame := List.find?_some hfind
    rw [honly e' hmem (of_decide_eq_true hsame)]
  · rename_i hfind
    rw [List.find?_eq_none] at hfind
    exact absurd (decide_eq_true hkey) (hfind e (List.mem_reverse.2 he))

end Memory

/-! ## Layers -/

/-- The value that memory is given for an address: that of the last key congruent to it, or zero. -/
def Assignments.startValue (initial : Assignments) (a : Word) : Int :=
  match initial.entries.reverse.find? fun (e : Int × Int) => e.1 % 65536 = (a.toNat : Int) with
  | some e => e.2 % 65536
  | none => 0

namespace Image

/-- The address of the first word. -/
def first (image : Image) : Nat := (image.origin % 65536).toNat

/-- The word that memory starts with at an address: that of the image, if the image has one there,
and otherwise the initial value. -/
def startWord (image : Image) (initial : Assignments) (a : Word) : Int :=
  if h : image.first ≤ a.toNat ∧ a.toNat < image.first + image.words.length then
    image.words[a.toNat - image.first] % 65536
  else initial.startValue a

/-- The words that fit into the address space, each with its address. -/
def placed (image : Image) : List (Int × Int) :=
  ((image.words.take (wordCount - image.first)).zipIdx image.first).map fun cell =>
    ((cell.2 : Int), cell.1)

/-- The same image with its residues. -/
def residue (image : Image) : Image := ⟨image.origin % 65536, image.words.map (· % 65536)⟩

theorem first_eq (image : Image) : image.first = (Word.ofInt image.origin).toNat :=
  (Word.toNat_ofInt image.origin).symm

end Image

/-- Memory that has only been given initial values. -/
theorem Memory.peek_assign_empty (initial : Assignments) (a : Word) :
    (((empty.assign initial.entries).peek a).toNat : Int) = initial.startValue a := by
  rw [peek_assign, Assignments.startValue]
  simp only [Word.ofInt_eq_iff]
  split
  · rw [Word.cast_toNat_ofInt]
  · rw [peek_empty]
    rfl

/-- **What memory holds at the start**: the words of the image over the initial values. -/
theorem Session.peek_start (options : Options) (image : Image) (terminal : Terminal)
    (journal : Journal) (a : Word) :
    (((Session.start options image terminal journal).machine.memory.peek a).toNat : Int) =
      image.startWord options.initialMemory a := by
  rw [Session.memory_start, Memory.peek_load, Image.startWord]
  simp only [← Image.first_eq]
  by_cases hin : image.first ≤ a.toNat ∧ a.toNat < image.first + image.words.length
  · rw [dif_pos ⟨hin.1, by omega⟩, dif_pos hin, Word.cast_toNat_ofInt]
  · rw [dif_neg (by omega), dif_neg hin, Memory.peek_assign_empty]

example : ([0xFFFE, 0xFFFF, 0, 5] : List Word).map
    (Image.startWord ⟨-2, [7, 65544, 9]⟩ ⟨[(0xFFFE, 1), (5, 2), (65541, -3)]⟩) =
      [7, 8, 0, 65533] := by decide

/-! ## Residues -/

namespace Memory

/-- Only the residues of values count, -/
theorem assign_residue (m : Memory) (entries : List (Int × Int)) :
    m.assign (entries.map fun e => (e.1, e.2 % 65536)) = m.assign entries := by
  rw [assign, List.foldl_map]
  simp only [Word.ofInt_emod]
  rfl

theorem store_residue (m : Memory) (address : Nat) (words : List Int) :
    m.store address (words.map (· % 65536)) = m.store address words := by
  induction words generalizing m address with
  | nil => rfl
  | cons word rest ih => rw [List.map_cons, store, store, ih, Word.ofInt_emod]

/-- and only the residues of an image. -/
theorem load_residue (m : Memory) (image : Image) :
    m.load image.residue.origin image.residue.words = m.load image.origin image.words := by
  simp only [load, Image.residue, Word.ofInt_emod, ← List.map_take, List.length_map, store_residue]

theorem load_nil (m : Memory) (origin : Int) : (m.load origin []).2 = m := by
  rw [load, List.take_nil, store]

theorem assign_append (m : Memory) (entries more : List (Int × Int)) :
    m.assign (entries ++ more) = (m.assign entries).assign more :=
  List.foldl_append

end Memory

/-! ## Words supplied as values -/

/-- The keys are not arbitrarily large. -/
theorem Assignments.exists_bound (initial : Assignments) :
    ∃ bound : Nat, ∀ key ∈ initial.entries.map Prod.fst, key < bound := by
  induction initial.entries.map Prod.fst with
  | nil => exact ⟨0, fun key hkey => absurd hkey List.not_mem_nil⟩
  | cons first keys ih =>
      obtain ⟨bound, hbound⟩ := ih
      refine ⟨bound + first.natAbs + 1, fun key hkey => ?_⟩
      obtain rfl | hkey := List.mem_cons.1 hkey
      · omega
      · have hlt := hbound key hkey
        omega

namespace Image

theorem mem_placed_iff {image : Image} {a w : Int} :
    (a, w) ∈ image.placed ↔
      ∃ i : Nat, image.words[i]? = some w ∧ image.first + i < wordCount ∧ a = image.first + i := by
  rw [placed, List.mem_map]
  constructor
  · rintro ⟨⟨word, address⟩, hmem, hcell⟩
    rw [Prod.mk.injEq] at hcell
    obtain ⟨rfl, rfl⟩ := hcell
    obtain ⟨hle, hword⟩ := List.mk_mem_zipIdx_iff_le_and_getElem?_sub.1 hmem
    rw [List.getElem?_take] at hword
    split at hword
    · rename_i hfits
      exact ⟨address - image.first, hword, by omega, by omega⟩
    · cases hword
  · rintro ⟨i, hword, hfits, rfl⟩
    refine ⟨(w, image.first + i), ?_, rfl⟩
    rw [List.mk_add_mem_zipIdx_iff_getElem?, List.getElem?_take, if_pos (by omega), hword]

/-- No two words are placed at one address. -/
theorem nodup_placed (image : Image) : (image.placed.map Prod.fst).Nodup := by
  have haddresses : image.placed.map Prod.fst =
      (List.range' image.first (image.words.take (wordCount - image.first)).length).map
        fun (address : Nat) => (address : Int) := by
    rw [placed, List.map_map, ← List.zipIdx_map_snd, List.map_map]
    rfl
  rw [haddresses]
  exact List.Nodup.map (fun _ _ => Int.ofNat.inj) List.nodup_range'

/-- `image.Supplied values` : the values are the words of the image that fit into the address space,
in any order and each at a key that is congruent to its address. -/
def Supplied (image : Image) (values : List (Int × Int)) : Prop :=
  (values.map fun e => (e.1 % 65536, e.2)).Perm image.placed

instance (image : Image) (values : List (Int × Int)) : Decidable (image.Supplied values) :=
  inferInstanceAs (Decidable (List.Perm _ _))

variable {image : Image} {values : List (Int × Int)}

theorem Supplied.placed_of_mem (h : image.Supplied values) {e : Int × Int} (he : e ∈ values) :
    ∃ i : Nat, image.words[i]? = some e.2 ∧ image.first + i < wordCount ∧
      e.1 % 65536 = image.first + i :=
  mem_placed_iff.1 (h.mem_iff.1 (List.mem_map_of_mem he))

/-- **Memory cannot tell supplied words from loaded ones.** -/
theorem Supplied.assign_eq (h : image.Supplied values) (m : Memory) :
    m.assign values = (m.load image.origin image.words).2 := by
  apply Memory.ext
  intro a
  rw [Memory.peek_load]
  simp only [← first_eq]
  by_cases hin : image.first ≤ a.toNat ∧ a.toNat - image.first < image.words.length
  · have ha : a.toNat < wordCount := a.isLt
    rw [dif_pos hin]
    have hmem : ((a.toNat : Int), image.words[a.toNat - image.first]) ∈ image.placed :=
      mem_placed_iff.2 ⟨_, List.getElem?_eq_getElem hin.2, by omega, by omega⟩
    obtain ⟨e, he, heq⟩ := List.mem_map.1 (h.mem_iff.2 hmem)
    rw [Prod.mk.injEq] at heq
    obtain ⟨hkey, hvalue⟩ := heq
    rw [← hvalue]
    refine Memory.peek_assign_of_mem he ((Word.ofInt_eq_iff _ _).2 hkey) ?_
    intro e' he' hkey'
    obtain ⟨i, hword, -, haddress⟩ := h.placed_of_mem he'
    rw [(Word.ofInt_eq_iff _ _).1 hkey'] at haddress
    have hi : i = a.toNat - image.first := by omega
    rw [hi, List.getElem?_eq_getElem hin.2, Option.some.injEq] at hword
    rw [← hword, hvalue]
  · rw [dif_neg hin]
    refine Memory.peek_assign_of_notMem fun e he hkey => hin ?_
    obtain ⟨i, hword, -, haddress⟩ := h.placed_of_mem he
    have hi := (List.getElem?_eq_some_iff.1 hword).1
    rw [(Word.ofInt_eq_iff _ _).1 hkey] at haddress
    omega

/-- The keys at which words are supplied differ. -/
theorem Supplied.nodup_keys (h : image.Supplied values) : (values.map Prod.fst).Nodup := by
  have hresidues := (h.map Prod.fst).nodup_iff.2 image.nodup_placed
  have hkeys : ((values.map Prod.fst).map (· % 65536)).Nodup := by
    rw [List.map_map] at hresidues ⊢
    exact hresidues
  exact hkeys.of_map _

/-- There are always fresh keys to supply words at: far enough out there are no others. -/
theorem exists_supplied (image : Image) (initial : Assignments) :
    ∃ values, image.Supplied values ∧ ∀ e ∈ values, e.1 ∉ initial.entries.map Prod.fst := by
  obtain ⟨bound, hbound⟩ := initial.exists_bound
  refine ⟨image.placed.map fun cell => (cell.1 + 65536 * bound, cell.2), ?_, ?_⟩
  · have hsame : (image.placed.map fun cell => (cell.1 + 65536 * (bound : Int), cell.2)).map
        (fun e => (e.1 % 65536, e.2)) = image.placed := by
      rw [List.map_map]
      refine (List.map_congr_left ?_).trans (List.map_id _)
      rintro ⟨address, word⟩ hcell
      obtain ⟨i, -, hfits, rfl⟩ := mem_placed_iff.1 hcell
      have hcount : wordCount = 65536 := rfl
      rw [Function.comp, id, Prod.mk.injEq]
      exact ⟨by omega, rfl⟩
    exact .of_eq hsame
  · intro e he hkey
    obtain ⟨⟨address, word⟩, hcell, rfl⟩ := List.mem_map.1 he
    obtain ⟨i, -, -, rfl⟩ := mem_placed_iff.1 hcell
    have hlt := hbound _ hkey
    dsimp only at hlt
    omega

end Image

/-- Values at fresh keys come last. -/
theorem Assignments.foldl_insert {initial : Assignments} {values : List (Int × Int)}
    (hfresh : ∀ e ∈ values, e.1 ∉ initial.entries.map Prod.fst)
    (hkeys : (values.map Prod.fst).Nodup) :
    values.foldl (fun a e => a.insert e.1 e.2) initial = ⟨initial.entries ++ values⟩ := by
  induction values generalizing initial with
  | nil => rw [List.append_nil, List.foldl_nil]
  | cons e values ih =>
      rw [List.map_cons, List.nodup_cons] at hkeys
      rw [List.foldl_cons, insert_of_not_mem (hfresh e List.mem_cons_self), ih ?_ hkeys.2,
        List.append_assoc, List.singleton_append]
      intro e' he'
      rw [List.map_append, List.mem_append]
      rintro (hold | hnew)
      · exact hfresh e' (List.mem_cons_of_mem _ he') hold
      · rw [List.map_singleton, List.mem_singleton] at hnew
        exact hkeys.1 (hnew ▸ List.mem_map_of_mem he')

/-! ## Runs -/

namespace Settings

/-- The settings, with another start and other initial values. -/
def starting (settings : Settings) (startAddress : Int) (initialMemory : Assignments) : Settings :=
  { settings with options := { settings.options with startAddress, initialMemory } }

/-- The settings with the residues of the start and of the initial values. -/
def residue (settings : Settings) : Settings :=
  settings.starting (settings.options.startAddress % 65536)
    ⟨settings.options.initialMemory.entries.map fun e => (e.1, e.2 % 65536)⟩

/-- The settings with further initial values, given one after the other. -/
def supplied (settings : Settings) (values : List (Int × Int)) : Settings :=
  settings.starting settings.options.startAddress
    (values.foldl (fun a e => a.insert e.1 e.2) settings.options.initialMemory)

theorem start_residue (settings : Settings) (image : Image) :
    settings.residue.options.start image.residue.origin =
      settings.options.start image.origin % 65536 := by
  show (if settings.options.startAtOrigin then image.origin % 65536
    else settings.options.startAddress % 65536) = _
  rw [Options.start]
  split <;> rfl

end Settings

section Runs

variable {settings : Settings} {image : Image} {terminal : Terminal} {journal : Journal}
  {startAddress : Int} {initialMemory : Assignments}

/-- **Runs that start alike are alike.** -/
theorem run_starting (image image' : Image)
    (hstart : Processor.reset ((settings.starting startAddress initialMemory).options.start
      image'.origin) = Processor.reset (settings.options.start image.origin))
    (hmemory : ((Memory.empty.assign initialMemory.entries).load image'.origin image'.words).2 =
      ((Memory.empty.assign settings.options.initialMemory.entries).load image.origin
        image.words).2) (fuel : Nat) :
    run fuel (settings.starting startAddress initialMemory) (.image image') terminal journal =
      run fuel settings (.image image) terminal journal := by
  have hsession : Session.start (settings.starting startAddress initialMemory).sorted.options
      image' terminal journal = Session.start settings.sorted.options image terminal journal := by
    show Session.start (settings.starting startAddress initialMemory).options image' terminal
      journal = Session.start settings.options image terminal journal
    have hmemory' : ((Memory.empty.assign
        (settings.starting startAddress initialMemory).options.initialMemory.entries).load
          image'.origin image'.words).2 = _ := hmemory
    simp only [Session.start, hstart, hmemory']
  have hrun : Program.session? (.image image') _ terminal journal = some _ :=
    congrArg some hsession
  -- once they are under way, it does not matter how they started
  rw [run_of_session? hrun,
    Session.runFor_congr (settings.starting startAddress initialMemory).sorted settings.sorted
      fun _ => rfl,
    run_of_session? rfl]
  rfl

/-- **Residues are enough.** -/
theorem run_residue (fuel : Nat) :
    run fuel settings.residue (.image image.residue) terminal journal =
      run fuel settings (.image image) terminal journal := by
  refine run_starting image image.residue ?_ ?_ fuel
  · have hstart := settings.start_residue image
    rw [Settings.residue] at hstart
    rw [hstart, Processor.reset, Processor.reset, Word.ofInt_emod]
  · rw [Memory.assign_residue, Memory.load_residue]

/-- **Words can be supplied instead of loaded.** -/
theorem run_supplied {values : List (Int × Int)} (hsupplied : image.Supplied values)
    (hfresh : ∀ e ∈ values, e.1 ∉ settings.options.initialMemory.entries.map Prod.fst)
    (fuel : Nat) :
    run fuel (settings.supplied values) (.image ⟨image.origin, []⟩) terminal journal =
      run fuel settings (.image image) terminal journal := by
  refine run_starting image ⟨image.origin, []⟩ ?_ ?_ fuel
  · rfl
  · rw [Assignments.foldl_insert hfresh hsupplied.nodup_keys, Memory.assign_append,
      hsupplied.assign_eq, Memory.load_nil]

/-- Bytes run as the image that they are, once the warnings are reported. -/
theorem run_of_parse {data : List Byte} {warnings : List Image.Warning}
    (h : Image.parse data = .ok (image, warnings)) (fuel : Nat) :
    run fuel settings (.bytes data) terminal journal =
      run fuel settings (.image image) terminal (Image.reported journal warnings) := by
  simp only [run, Image.read_of_parse h]

end Runs

/-- **What a program starts with, and what of it counts.**  Memory starts with the words of the
image over the initial values over zeros, and the program runs from there.  Only the residues of the
origin, of the words, of the start and of the values count.  It does not matter whether the words
that fit are loaded or are further values at fresh keys, which there always are.  Bytes run as the
image that they are. -/
theorem run_layered (settings : Settings) (image : Image) (terminal : Terminal)
    (journal : Journal) :
    ((∀ fuel, run fuel settings (.image image) terminal journal =
        ((Session.start settings.sorted.options image terminal journal).runFor settings.sorted
          fuel).map fun r => r.2.conclusion settings.sorted.options r.1) ∧
      ∀ a, (((Session.start settings.sorted.options image terminal
        journal).machine.memory.peek a).toNat : Int) =
          image.startWord settings.options.initialMemory a) ∧
    (∀ fuel, run fuel settings.residue (.image image.residue) terminal journal =
      run fuel settings (.image image) terminal journal) ∧
    (∃ values, image.Supplied values ∧
      ∀ e ∈ values, e.1 ∉ settings.options.initialMemory.entries.map Prod.fst) ∧
    (∀ values, image.Supplied values →
      (∀ e ∈ values, e.1 ∉ settings.options.initialMemory.entries.map Prod.fst) →
        ∀ fuel, run fuel (settings.supplied values) (.image ⟨image.origin, []⟩) terminal journal =
          run fuel settings (.image image) terminal journal) ∧
    ∀ data warnings, Image.parse data = .ok (image, warnings) →
      ∀ fuel, run fuel settings (.bytes data) terminal journal =
        run fuel settings (.image image) terminal (Image.reported journal warnings) := by
  refine ⟨⟨run_of_session? rfl, Session.peek_start _ image terminal journal⟩, run_residue,
    image.exists_supplied _, ?_, ?_⟩
  · intro values hsupplied hfresh
    exact run_supplied hsupplied hfresh
  · intro data warnings hparse
    exact run_of_parse hparse

/-- Clears a register and halts, in the last two cells. -/
def Image.cornered : Image := ⟨0xFFFE, [0x5020, 0xF025]⟩

/-- Starts at the origin, with three initial values of which two are for one address. -/
def Settings.crowded : Settings where
  options := { startAtOrigin := true, initialMemory := ⟨[(0xFFFE, 1), (5, 2), (65541, -3)]⟩ }

/-- The two words come to the same whether read from bytes or supplied in the other order. -/
theorem run_layered_crowded :
    Image.cornered.Supplied [(-1, 0xF025), (131070, 0x5020)] ∧
    (∀ e ∈ [((-1 : Int), (0xF025 : Int)), (131070, 0x5020)],
      e.1 ∉ Settings.crowded.options.initialMemory.entries.map Prod.fst) ∧
    Image.parse [0xFF, 0xFE, 0x50, 0x20, 0xF0, 0x25, 0x00] = .ok (.cornered, [.oddByte]) ∧
    run 3 (Settings.crowded.supplied [(-1, 0xF025), (131070, 0x5020)]) (.image ⟨0xFFFE, []⟩)
        (.buffer [] .sentinel) (Image.reported ⟨.warning, #[]⟩ [.oddByte]) =
      run 3 Settings.crowded (.bytes [0xFF, 0xFE, 0x50, 0x20, 0xF0, 0x25, 0x00])
        (.buffer [] .sentinel) ⟨.warning, #[]⟩ := by
  have hsupplied : Image.cornered.Supplied [(-1, 0xF025), (131070, 0x5020)] := by decide
  have hfresh : ∀ e ∈ [((-1 : Int), (0xF025 : Int)), (131070, 0x5020)],
      e.1 ∉ Settings.crowded.options.initialMemory.entries.map Prod.fst := by decide
  have hparse : Image.parse [0xFF, 0xFE, 0x50, 0x20, 0xF0, 0x25, 0x00] =
      .ok (.cornered, [.oddByte]) := by decide
  have hloaded := (run_layered .crowded .cornered (.buffer [] .sentinel)
    (Image.reported ⟨.warning, #[]⟩ [.oddByte])).2.2.2.1 _ hsupplied hfresh 3
  have hbytes := (run_layered .crowded .cornered (.buffer [] .sentinel) ⟨.warning, #[]⟩).2.2.2.2
    _ _ hparse 3
  exact ⟨hsupplied, hfresh, hparse, hloaded.trans hbytes.symm⟩

end LittleComputer
