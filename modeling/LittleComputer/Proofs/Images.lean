import LittleComputer.Image.Load
import LittleComputer.Memory

/-!
# Images and the memory they fill

* `Image.parse_of_short`, `Image.parse_of_long` — what data is an image at all.
* `Image.parse_encode_append` — **round trip**: reading back what was written gives the words that
  lie in the address space.
* `Memory.peek_load` — which cells an image fills, and with what.
* `Memory.peek_load_replicate` — an image as long as the address space fills all of it.
-/

namespace LittleComputer

/-! ## Reading the file form -/

namespace Image

/-- Data that is too short is no image. -/
theorem parse_of_short {data : List Byte} (h : data.length < 2) :
    parse data = .error .tooShort := by
  match data with
  | [] => rfl
  | [_] => rfl
  | _ :: _ :: rest =>
      simp only [List.length_cons] at h
      omega

/-- All other data is one. -/
theorem parse_of_long {data : List Byte} (h : 2 ≤ data.length) :
    ∃ image warnings, parse data = .ok (image, warnings) := by
  match data with
  | [] => simp at h
  | [_] => simp at h
  | _ :: _ :: rest => exact ⟨_, _, rfl⟩

theorem length_flatMap_toBytes (words : List Word) :
    (words.flatMap Word.toBytes).length = 2 * words.length := by
  induction words with
  | nil => rfl
  | cons w words ih =>
      rw [List.flatMap_cons, List.length_append, ih, List.length_cons]
      show 2 + 2 * words.length = _
      omega

/-- The number of bytes tells whether there is one more than the words take. -/
theorem odd_length_iff (words : List Word) (odd : Option Byte) :
    (words.flatMap Word.toBytes ++ odd.toList).length % 2 = 1 ↔ odd.isSome = true := by
  rw [List.length_append, length_flatMap_toBytes]
  cases odd with
  | none => simp
  | some byte => simp [Nat.add_mod]

/-- **Round trip.**  An image that was written is read back, without the words that lie past the end
of the address space and whether or not an odd byte follows. -/
theorem parse_encode_append (origin : Word) (words : List Word) (odd : Option Byte) :
    parse (encode origin words ++ odd.toList) = .ok
      (⟨origin.toNat, (words.take (wordCount - origin.toNat)).map fun w => (w.toNat : Int)⟩,
        (if odd.isSome then [.oddByte] else []) ++
          if (words.take (wordCount - origin.toNat)).length < words.length then
            [.truncated (words.length - (words.take (wordCount - origin.toNat)).length)]
          else []) := by
  have hwords : wordsOf (words.flatMap Word.toBytes ++ odd.toList) = words := by
    rw [wordsOf_flatMap_toBytes]
    cases odd with
    | none => rw [Option.toList_none, wordsOf_nil, List.append_nil]
    | some byte => rw [Option.toList_some, wordsOf_singleton, List.append_nil]
  show parse (origin.extractLsb' 8 8 :: origin.extractLsb' 0 8 ::
    (words.flatMap Word.toBytes ++ odd.toList)) = _
  simp only [parse, ofBytes_toBytes, hwords, odd_length_iff]

theorem parse_encode (origin : Word) (words : List Word) :
    parse (encode origin words) = .ok
      (⟨origin.toNat, (words.take (wordCount - origin.toNat)).map fun w => (w.toNat : Int)⟩,
        if (words.take (wordCount - origin.toNat)).length < words.length then
          [.truncated (words.length - (words.take (wordCount - origin.toNat)).length)]
        else []) := by
  have h := parse_encode_append origin words none
  rwa [Option.toList_none, List.append_nil] at h

theorem read_encode (origin : Word) (words : List Word) (journal : Journal) :
    ∃ journal', read (encode origin words) journal = (.ok
      ⟨origin.toNat, (words.take (wordCount - origin.toNat)).map fun w => (w.toNat : Int)⟩,
      journal') := by
  rw [read, parse_encode]
  exact ⟨_, rfl⟩

/-- An image as long as the address space is read back whole. -/
theorem read_encode_replicate (word : Word) (journal : Journal) :
    ∃ journal', read (encode 0 (List.replicate wordCount word)) journal =
      (.ok ⟨0, List.replicate wordCount word.toNat⟩, journal') := by
  obtain ⟨journal', hread⟩ := read_encode 0 (List.replicate wordCount word) journal
  have hwhole : wordCount - (0 : Word).toNat = wordCount := rfl
  rw [hwhole, List.take_of_length_le (Nat.le_of_eq List.length_replicate),
    List.map_replicate] at hread
  exact ⟨journal', hread⟩

end Image

/-! ## Filling memory -/

namespace Memory

/-- **What an image fills.**  Its words lie from the origin on, as far as the address space goes;
every other cell is as it was. -/
theorem peek_load (m : Memory) (origin : Int) (words : List Int) (a : Word) :
    (m.load origin words).2.peek a =
      if h : (Word.ofInt origin).toNat ≤ a.toNat ∧
          a.toNat - (Word.ofInt origin).toNat < words.length then
        Word.ofInt words[a.toNat - (Word.ofInt origin).toNat]
      else m.peek a := by
  have ha : a.toNat < wordCount := a.isLt
  have hfits : (words.take (wordCount - (Word.ofInt origin).toNat)).length =
      min (wordCount - (Word.ofInt origin).toNat) words.length := List.length_take
  have horigin : (Word.ofInt origin).toNat < wordCount := (Word.ofInt origin).isLt
  show (m.store (Word.ofInt origin).toNat
    (words.take (wordCount - (Word.ofInt origin).toNat))).peek a = _
  rw [peek_store _ _ _ _ (by rw [hfits]; omega)]
  by_cases hin : (Word.ofInt origin).toNat ≤ a.toNat ∧
      a.toNat - (Word.ofInt origin).toNat < words.length
  · rw [dif_pos hin, dif_pos ⟨hin.1, by rw [hfits]; omega⟩, List.getElem_take]
  · rw [dif_neg hin, dif_neg (by rw [hfits]; omega)]

/-- A word that fits lies as far from the origin as it does in the image. -/
theorem peek_load_of_getElem? (m : Memory) (origin : Int) {words : List Int} {i : Nat} {word : Int}
    (hword : words[i]? = some word) (hfits : (Word.ofInt origin).toNat + i < wordCount) :
    (m.load origin words).2.peek (Word.ofInt origin + BitVec.ofNat 16 i) = Word.ofInt word := by
  obtain ⟨hi, hget⟩ := List.getElem?_eq_some_iff.1 hword
  simp only [wordCount] at hfits
  have ha : (Word.ofInt origin + BitVec.ofNat 16 i).toNat = (Word.ofInt origin).toNat + i := by
    rw [BitVec.toNat_add, BitVec.toNat_ofNat]
    omega
  rw [peek_load, dif_pos (by omega)]
  simp only [ha, Nat.add_sub_cancel_left, hget]

/-- An image as long as the address space fills all of it. -/
theorem peek_load_replicate (m : Memory) (word : Int) (a : Word) :
    (m.load 0 (List.replicate wordCount word)).2.peek a = Word.ofInt word := by
  have hzero : (Word.ofInt 0).toNat = 0 := rfl
  have ha : a.toNat < wordCount := a.isLt
  rw [peek_load, dif_pos (by rw [hzero, List.length_replicate]; omega), List.getElem_replicate]

end Memory

end LittleComputer
