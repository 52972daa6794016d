import LittleComputer.Proofs.Images
import Mathlib.Data.List.Induction

/-!
# The file form of images, exactly

All data that is long enough for an origin is an origin, words and perhaps an odd byte, written one
after the other.  So what is known of reading back what was written says everything about reading.

* `Image.exists_eq_encode` — data that is long enough is something written.
* `Image.WordAt`, `Image.wordAt_encode` — where a word stands in what was written.
* `Image.IsReadingOf`, `Image.isReadingOf_encode` — what it is to read data exactly: every word from
  its place, as many as fit, and a warning for whatever is left.
* `Image.read_of_parse` — the warnings are reported.
* `Image.IsReadingOf.load` — memory takes all of an image that has been read.
* `Image.parse_exact` — **reading is exact, and it undoes writing**.
-/

namespace LittleComputer

namespace Image

/-! ## Data is something written -/

theorem toBytes_ofBytes (high low : Byte) : (Word.ofBytes high low).toBytes = [high, low] := by
  unfold Word.toBytes Word.ofBytes
  rw [BitVec.extractLsb'_append_eq_left, BitVec.extractLsb'_append_eq_right]

/-- Bytes are words and perhaps one more byte. -/
theorem exists_eq_flatMap_toBytes (bytes : List Byte) :
    ∃ (words : List Word) (odd : Option Byte),
      bytes = words.flatMap Word.toBytes ++ odd.toList := by
  induction bytes using List.twoStepInduction with
  | nil => exact ⟨[], none, rfl⟩
  | singleton byte => exact ⟨[], some byte, rfl⟩
  | cons_cons high low rest ih _ =>
      obtain ⟨words, odd, rfl⟩ := ih
      refine ⟨Word.ofBytes high low :: words, odd, ?_⟩
      rw [List.flatMap_cons, toBytes_ofBytes]
      rfl

/-- **Data that is long enough for an origin is something written**, perhaps with an odd byte. -/
theorem exists_eq_encode {data : List Byte} (h : 2 ≤ data.length) :
    ∃ (origin : Word) (words : List Word) (odd : Option Byte),
      data = encode origin words ++ odd.toList := by
  obtain ⟨words, odd, rfl⟩ := exists_eq_flatMap_toBytes data
  cases words with
  | nil => cases odd <;> simp at h
  | cons origin words => exact ⟨origin, words, odd, rfl⟩

theorem encode_append (origin : Word) (words more : List Word) :
    encode origin (words ++ more) = encode origin words ++ more.flatMap Word.toBytes := by
  rw [encode, encode, ← List.flatMap_append, List.cons_append]

/-- The numbers of words are those of no other words. -/
theorem map_ofInt_map_toNat (words : List Word) :
    (words.map fun w => (w.toNat : Int)).map Word.ofInt = words := by
  induction words with
  | nil => rfl
  | cons w words ih => rw [List.map_cons, List.map_cons, ih, Word.ofInt_toNat]

/-! ## Where the words stand -/

/-- `WordAt data i value` : the `i`-th pair of bytes is the number, the high byte first. -/
def WordAt (data : List Byte) (i : Nat) (value : Int) : Prop :=
  ∃ high low : Byte, data[2 * i]? = some high ∧ data[2 * i + 1]? = some low ∧
    value = 256 * high.toNat + low.toNat

theorem toNat_eq_bytes (w : Word) :
    w.toNat = 256 * (w.extractLsb' 8 8).toNat + (w.extractLsb' 0 8).toNat := by
  have hw := w.isLt
  simp only [BitVec.extractLsb'_toNat, Nat.shiftRight_eq_div_pow]
  omega

/-- Words that are written one after the other stand one after the other. -/
theorem wordAt_flatMap_toBytes {words : List Word} {i : Nat} {w : Word} (h : words[i]? = some w)
    (rest : List Byte) : WordAt (words.flatMap Word.toBytes ++ rest) i w.toNat := by
  induction words generalizing i with
  | nil => cases h
  | cons first words ih =>
      cases i with
      | zero =>
          rw [List.getElem?_cons_zero, Option.some.injEq] at h
          subst h
          refine ⟨_, _, rfl, rfl, ?_⟩
          rw [toNat_eq_bytes first, Int.natCast_add, Int.natCast_mul]
          rfl
      | succ i =>
          rw [List.getElem?_cons_succ] at h
          exact ih h

theorem wordAt_origin (origin : Word) (words : List Word) (rest : List Byte) :
    WordAt (encode origin words ++ rest) 0 origin.toNat :=
  wordAt_flatMap_toBytes List.getElem?_cons_zero rest

theorem wordAt_encode (origin : Word) {words : List Word} {i : Nat} {w : Word}
    (h : words[i]? = some w) (rest : List Byte) :
    WordAt (encode origin words ++ rest) (i + 1) w.toNat :=
  wordAt_flatMap_toBytes (by rwa [List.getElem?_cons_succ]) rest

/-! ## Reading data -/

/-- How many whole words follow the first one. -/
def following (data : List Byte) : Nat := (data.length - 2) / 2

theorem following_encode_append (origin : Word) (words : List Word) (odd : Option Byte) :
    following (encode origin words ++ odd.toList) = words.length := by
  rw [following, encode, List.length_append, length_flatMap_toBytes, List.length_cons]
  cases odd with
  | none =>
      rw [Option.toList_none, List.length_nil]
      omega
  | some byte =>
      rw [Option.toList_some, List.length_singleton]
      omega

/-- What it is to read data exactly as an image, with the warnings. -/
structure IsReadingOf (image : Image) (data : List Byte) (warnings : List Warning) : Prop where
  /-- The origin is the first word. -/
  origin : WordAt data 0 image.origin
  /-- The words are those that follow it, -/
  words : ∀ i w, image.words[i]? = some w → WordAt data (i + 1) w
  /-- as many as there are and as fit into the address space. -/
  length : (image.words.length : Int) = min (following data : Int) (wordCount - image.origin)
  /-- Writing them again gives the data up to the words that lie past the end of the address space
  and to an odd byte. -/
  rest : ∃ (dropped : List Word) (odd : Option Byte),
    data = encode (Word.ofInt image.origin) (image.words.map Word.ofInt) ++
      (dropped.flatMap Word.toBytes ++ odd.toList) ∧
    (dropped ≠ [] → image.limit = wordCount)
  /-- There is a warning if the number of bytes is odd, and one that says how many words have been
  dropped if any have been. -/
  warnings : warnings =
    (if data.length % 2 = 1 then [.oddByte] else []) ++
      if image.words.length < following data then
        [.truncated (following data - image.words.length)]
      else []

/-- **What was written is read exactly.** -/
theorem isReadingOf_encode (origin : Word) (words : List Word) (odd : Option Byte) :
    ∃ image warnings, parse (encode origin words ++ odd.toList) = .ok (image, warnings) ∧
      image.IsReadingOf (encode origin words ++ odd.toList) warnings := by
  have horigin : origin.toNat < wordCount := origin.isLt
  have hodd : (encode origin words ++ odd.toList).length % 2 = 1 ↔ odd.isSome = true :=
    odd_length_iff (origin :: words) odd
  have hfollowing := following_encode_append origin words odd
  refine ⟨_, _, parse_encode_append origin words odd, ?_⟩
  constructor
  case origin => exact wordAt_origin origin words _
  case words =>
    intro i w hw
    rw [List.getElem?_map, Option.map_eq_some_iff] at hw
    obtain ⟨word, hword, rfl⟩ := hw
    have hword' : words[i]? = some word := by
      rw [List.getElem?_take] at hword
      split at hword
      · exact hword
      · cases hword
    exact wordAt_encode origin hword' _
  case length =>
    rw [hfollowing, List.length_map, List.length_take]
    dsimp only
    omega
  case rest =>
    refine ⟨words.drop (wordCount - origin.toNat), odd, ?_, ?_⟩
    · rw [Word.ofInt_toNat, map_ofInt_map_toNat, ← List.append_assoc, ← encode_append,
        List.take_append_drop]
    · intro hdropped
      have hlonger : wordCount - origin.toNat < words.length := by
        rw [Ne, List.drop_eq_nil_iff] at hdropped
        omega
      rw [limit, List.length_map, List.length_take]
      dsimp only
      omega
  case warnings =>
    simp only [hodd, hfollowing, List.length_map]

/-! ## Reporting the warnings -/

/-- The journal with the warnings in it, if it keeps warnings. -/
def reported (journal : Journal) (warnings : List Warning) : Journal :=
  if journal.keeps .warning then
    { journal with
      entries := journal.entries ++
        (warnings.map fun w => (⟨.warning, .loader, w.message⟩ : Entry)) }
  else journal

theorem reported_nil (journal : Journal) : reported journal [] = journal := by
  simp [reported]

theorem reported_cons (journal : Journal) (w : Warning) (warnings : List Warning) :
    reported journal (w :: warnings) =
      reported (journal.add .warning .loader fun _ => w.message) warnings := by
  unfold reported Journal.add
  by_cases hkeeps : journal.keeps .warning = true
  · have hstill : ∀ entries, Journal.keeps { journal with entries } .warning = true :=
      fun _ => hkeeps
    simp [hkeeps, hstill]
  · simp [hkeeps]

/-- Adding warnings one after the other is adding all of them. -/
theorem foldl_add_eq (journal : Journal) (warnings : List Warning) :
    warnings.foldl (fun j w => j.add .warning .loader fun _ => w.message) journal =
      reported journal warnings := by
  induction warnings generalizing journal with
  | nil => exact (reported_nil journal).symm
  | cons w warnings ih => rw [List.foldl_cons, ih, reported_cons]

theorem read_of_parse {data : List Byte} {image : Image} {warnings : List Warning}
    (h : parse data = .ok (image, warnings)) (journal : Journal) :
    read data journal = (.ok image, reported journal warnings) := by
  rw [read, h]
  dsimp only
  rw [foldl_add_eq]

end Image

/-! ## Images in memory -/

/-- All of an image lies in memory, and none of it past the end of the address space. -/
structure Memory.Holds (m : Memory) (image : Image) : Prop where
  /-- The image ends where the address space does, or before. -/
  fits : image.limit ≤ wordCount
  /-- Its words lie from the origin on. -/
  words : ∀ (i : Nat) (w : Int), image.words[i]? = some w →
    ((m.peek (Word.ofInt (image.origin + i))).toNat : Int) = w

namespace Image

variable {image : Image} {data : List Byte} {warnings : List Warning}

/-- The numbers that two bytes can be are those of a word. -/
theorem WordAt.toNat_ofInt {i : Nat} {value : Int} (h : WordAt data i value) :
    ((Word.ofInt value).toNat : Int) = value := by
  obtain ⟨high, low, -, -, rfl⟩ := h
  have hhigh := high.isLt
  have hlow := low.isLt
  rw [Word.cast_toNat_ofInt]
  omega

/-- An image that has been read ends where the address space does, or before. -/
theorem IsReadingOf.limit_le (h : image.IsReadingOf data warnings) : image.limit ≤ wordCount := by
  have hlength := h.length
  rw [limit]
  omega

/-- **Memory takes all of an image that has been read.** -/
theorem IsReadingOf.load (h : image.IsReadingOf data warnings) (m : Memory) :
    (m.load image.origin image.words).1 = image.words.length ∧
      (m.load image.origin image.words).2.Holds image := by
  have horigin := h.origin.toNat_ofInt
  have hfits := h.limit_le
  rw [limit] at hfits
  refine ⟨?_, h.limit_le, ?_⟩
  · show (image.words.take (wordCount - (Word.ofInt image.origin).toNat)).length = _
    rw [List.length_take]
    omega
  · intro i w hw
    obtain ⟨hi, rfl⟩ := List.getElem?_eq_some_iff.1 hw
    have haddress : (Word.ofInt (image.origin + i)).toNat =
        (Word.ofInt image.origin).toNat + i := by
      have hcount : wordCount = 65536 := rfl
      rw [Word.toNat_ofInt (image.origin + i)]
      omega
    have hinside : (Word.ofInt image.origin).toNat ≤ (Word.ofInt (image.origin + i)).toNat ∧
        (Word.ofInt (image.origin + i)).toNat - (Word.ofInt image.origin).toNat <
          image.words.length := by
      omega
    have hcell : (m.load image.origin image.words).2.peek (Word.ofInt (image.origin + i)) =
        Word.ofInt image.words[i] := by
      rw [Memory.peek_load, dif_pos hinside]
      simp only [haddress, Nat.add_sub_cancel_left]
    rw [hcell, (h.words i _ hw).toNat_ofInt]

/-! ## Reading and writing -/

/-- **Reading is exact, and it undoes writing.**  Data has no origin only if it is shorter than one.
All other data is read exactly, whatever cannot be taken is reported, and memory takes all that has
been read.  An image that fits into the address space is read back from what was written, whether or
not an odd byte follows. -/
theorem parse_exact :
    (∀ data : List Byte,
      (data.length < 2 ∧ parse data = .error .tooShort ∧
        ∀ journal, read data journal = (.error .tooShort, journal)) ∨
      (2 ≤ data.length ∧ ∃ image warnings, parse data = .ok (image, warnings) ∧
        image.IsReadingOf data warnings ∧
        (∀ journal, read data journal = (.ok image, reported journal warnings)) ∧
        ∀ m : Memory, (m.load image.origin image.words).1 = image.words.length ∧
          (m.load image.origin image.words).2.Holds image)) ∧
    ∀ (origin : Word) (words : List Word) (odd : Option Byte),
      origin.toNat + words.length ≤ wordCount →
        parse (encode origin words ++ odd.toList) =
          .ok (⟨origin.toNat, words.map fun w => (w.toNat : Int)⟩,
            if odd.isSome then [.oddByte] else []) := by
  refine ⟨fun data => ?_, fun origin words odd hfits => ?_⟩
  · by_cases hlong : 2 ≤ data.length
    · obtain ⟨origin, words, odd, rfl⟩ := exists_eq_encode hlong
      obtain ⟨image, warnings, hparse, hreading⟩ := isReadingOf_encode origin words odd
      exact .inr ⟨hlong, image, warnings, hparse, hreading, read_of_parse hparse, hreading.load⟩
    · have hshort := parse_of_short (Nat.lt_of_not_le hlong)
      refine .inl ⟨Nat.lt_of_not_le hlong, hshort, fun journal => ?_⟩
      rw [read, hshort]
  · have hwhole : words.take (wordCount - origin.toNat) = words :=
      List.take_of_length_le (by omega)
    rw [parse_encode_append, hwhole, if_neg (Nat.lt_irrefl _), List.append_nil]

/-- Two words that end where the address space does, and an odd byte. -/
theorem parse_exact_fitting :
    (0xFFFE : Word).toNat + [(0x1234 : Word), 0xF025].length ≤ wordCount ∧
      parse (encode 0xFFFE [0x1234, 0xF025] ++ (some (0x7F : Byte)).toList) =
        .ok (⟨(0xFFFE : Word).toNat, [(0x1234 : Word), 0xF025].map fun w => (w.toNat : Int)⟩,
          [.oddByte]) :=
  ⟨by decide, parse_exact.2 0xFFFE [0x1234, 0xF025] (some 0x7F) (by decide)⟩

end Image

end LittleComputer
