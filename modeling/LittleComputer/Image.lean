import LittleComputer.Fault
import LittleComputer.Word

/-!
# Program images

An image is an origin and the words to be placed from there on.  Its file form is a stream of
big-endian words, the origin first.  Reading that form (`Image.parse`) drops a trailing odd byte and
the words that would pass the end of the address space, with a warning for each; writing it is
`Image.encode`.
-/

namespace LittleComputer

/-- The word with the given high and low bytes. -/
def Word.ofBytes (high low : Byte) : Word := high ++ low

/-- The bytes of a word, high byte first. -/
def Word.toBytes (w : Word) : List Byte := [w.extractLsb' 8 8, w.extractLsb' 0 8]

/-- The big-endian words in a list of bytes; an odd byte at the end counts for nothing. -/
def wordsOf (bytes : List Byte) : List Word := go bytes []
where
  /-- Reads on after the words in `read`, which are in reverse. -/
  go : List Byte → (read : List Word) → List Word
    | high :: low :: rest, read => go rest (Word.ofBytes high low :: read)
    | _, read => read.reverse

/-- A program: where it goes and what it is.  Both may be any integers; memory takes residues. -/
structure Image where
  /-- The address of the first word. -/
  origin : Int
  /-- The words from there on. -/
  words : List Int
  deriving DecidableEq, Repr

namespace Image

/-- The address after the last word. -/
def limit (image : Image) : Int := image.origin + image.words.length

/-- Why there is no image. -/
inductive Error where
  /-- The file cannot be read. -/
  | unreadable (path reason : String)
  /-- The data is too short to hold an origin. -/
  | tooShort
  deriving DecidableEq, Repr

/-- The message of a failed load. -/
def Error.message : Error → String
  | unreadable path reason => "Failed to load image " ++ path ++ ": " ++ reason
  | tooShort => "Image is too short to contain an origin"

/-- A failed load as it is reported: no instruction has run yet. -/
def Error.report (e : Error) : Report := { kind := .load, message := e.message }

/-- What is odd about an image that could be read. -/
inductive Warning where
  /-- There is half a word at the end. -/
  | oddByte
  /-- So many words lie past the end of the address space. -/
  | truncated (dropped : Nat)
  deriving DecidableEq, Repr

/-- The text of a warning. -/
def Warning.message : Warning → String
  | oddByte => "Ignoring trailing odd byte in image"
  | truncated dropped =>
    "Image truncated at end of address space: " ++ toString dropped ++ " words dropped"

/-- Reads the file form of an image. -/
def parse : List Byte → Except Error (Image × List Warning)
  | high :: low :: rest =>
    let origin := (Word.ofBytes high low).toNat
    let words := wordsOf rest
    let kept := words.take (wordCount - origin)
    let odd := if rest.length % 2 = 1 then [.oddByte] else []
    let truncated := if kept.length < words.length then
      [.truncated (words.length - kept.length)] else []
    .ok (⟨origin, kept.map fun w => w.toNat⟩, odd ++ truncated)
  | _ => .error .tooShort

/-- The file form of an image. -/
def encode (origin : Word) (words : List Word) : List Byte := (origin :: words).flatMap Word.toBytes

/-! ## Words and their bytes -/

theorem ofBytes_toBytes (w : Word) :
    Word.ofBytes (w.extractLsb' 8 8) (w.extractLsb' 0 8) = w := by
  exact BitVec.extractLsb'_append_extractLsb'

theorem wordsOf_go (bytes : List Byte) (read : List Word) :
    wordsOf.go bytes read = read.reverse ++ wordsOf bytes := by
  suffices h : ∀ n, ∀ bytes : List Byte, bytes.length ≤ n → ∀ read,
      wordsOf.go bytes read = read.reverse ++ wordsOf.go bytes [] from h _ bytes (Nat.le_refl _) read
  intro n
  induction n with
  | zero =>
    intro bytes h read
    cases bytes with
    | nil => simp [wordsOf.go]
    | cons => simp at h
  | succ n ih =>
    intro bytes h read
    match bytes with
    | [] => simp [wordsOf.go]
    | [_] => simp [wordsOf.go]
    | high :: low :: rest =>
      simp only [List.length_cons] at h
      rw [wordsOf.go, wordsOf.go, ih rest (by omega), ih rest (by omega) [_]]
      simp

theorem wordsOf_nil : wordsOf [] = [] := rfl

theorem wordsOf_singleton (byte : Byte) : wordsOf [byte] = [] := rfl

theorem wordsOf_cons_cons (high low : Byte) (rest : List Byte) :
    wordsOf (high :: low :: rest) = Word.ofBytes high low :: wordsOf rest := by
  rw [wordsOf, wordsOf.go, wordsOf_go]
  rfl

theorem wordsOf_flatMap_toBytes (words : List Word) (rest : List Byte) :
    wordsOf (words.flatMap Word.toBytes ++ rest) = words ++ wordsOf rest := by
  induction words with
  | nil => rfl
  | cons w words ih =>
    simp only [List.flatMap_cons, Word.toBytes, List.cons_append, List.nil_append,
      wordsOf_cons_cons, ofBytes_toBytes]
    rw [ih]

end Image

end LittleComputer
