import LittleComputer.Word

/-!
# Base 64

Bytes written in the 64 characters of the standard alphabet, four characters for three bytes.  An
incomplete last group is filled up with equals signs.  `decode` is strict (RFC 4648): it takes
nothing but the alphabet and, at the end, the marks that the last group needs.  The bits of an
incomplete group that belong to no byte may be anything.
-/

namespace LittleComputer.Base64

/-- Six bits: what one character stands for. -/
abbrev Sextet := BitVec 6

/-- The character that stands for six bits. -/
def symbol (s : Sextet) : Char :=
  let n := s.toNat
  if n < 26 then Char.ofNat ('A'.toNat + n)
  else if n < 52 then Char.ofNat ('a'.toNat + (n - 26))
  else if n < 62 then Char.ofNat ('0'.toNat + (n - 52))
  else if n = 62 then '+' else '/'

/-- The six bits that a character of the alphabet stands for. -/
def sextet? (c : Char) : Option Sextet :=
  if 'A' ≤ c ∧ c ≤ 'Z' then some (BitVec.ofNat 6 (c.toNat - 'A'.toNat))
  else if 'a' ≤ c ∧ c ≤ 'z' then some (BitVec.ofNat 6 (c.toNat - 'a'.toNat + 26))
  else if '0' ≤ c ∧ c ≤ '9' then some (BitVec.ofNat 6 (c.toNat - '0'.toNat + 52))
  else if c = '+' then some 62
  else if c = '/' then some 63
  else none

/-- The sextets of a group of bytes: one more than there are bytes, up to three. -/
def groupSextets (a b c : Byte) : List Sextet :=
  let bits : BitVec 24 := a ++ b ++ c
  [bits.extractLsb' 18 6, bits.extractLsb' 12 6, bits.extractLsb' 6 6, bits.extractLsb' 0 6]

/-- The bytes of a group of sextets. -/
def groupBytes (s t u v : Sextet) : List Byte :=
  let bits : BitVec 24 := s ++ t ++ u ++ v
  [bits.extractLsb' 16 8, bits.extractLsb' 8 8, bits.extractLsb' 0 8]

/-! ## Writing -/

/-- Writes bytes after the characters in `written`, which are in reverse. -/
def encodeAfter : List Byte → (written : List Char) → List Char
  | a :: b :: c :: rest, written =>
    encodeAfter rest (((groupSextets a b c).map symbol).reverseAux written)
  | [a, b], written =>
    '=' :: ((groupSextets a b 0).take 3 |>.map symbol).reverseAux written |>.reverse
  | [a], written =>
    '=' :: '=' :: ((groupSextets a 0 0).take 2 |>.map symbol).reverseAux written |>.reverse
  | [], written => written.reverse

/-- The text of some bytes. -/
def encode (bytes : List Byte) : String := String.ofList (encodeAfter bytes [])

/-! ## Reading -/

/-- Reads characters of the alphabet after the sextets in `read`, which are in reverse. -/
def sextetsAfter? : List Char → (read : List Sextet) → Option (List Sextet)
  | [], read => some read.reverse
  | c :: rest, read =>
    match sextet? c with
    | some s => sextetsAfter? rest (s :: read)
    | none => none

/-- Reads sextets followed by so many marks, after the bytes in `read`, which are in reverse. -/
def bytesAfter? (marks : Nat) : List Sextet → (read : List Byte) → Option (List Byte)
  | s :: t :: u :: v :: rest, read =>
    bytesAfter? marks rest ((groupBytes s t u v).reverseAux read)
  | [s, t, u], read =>
    if marks = 1 then some (((groupBytes s t u 0).take 2).reverseAux read).reverse else none
  | [s, t], read =>
    if marks = 2 then some (((groupBytes s t 0 0).take 1).reverseAux read).reverse else none
  | [_], _ => none
  | [], read => if marks = 0 then some read.reverse else none

/-- The bytes that a text stands for, if it is well formed. -/
def decode (s : String) : Option (List Byte) :=
  let symbols := s.toList.takeWhile (· ≠ '=')
  let marks := s.toList.dropWhile (· ≠ '=')
  if marks.all (· = '=') then do bytesAfter? marks.length (← sextetsAfter? symbols []) [] else none

theorem sextet?_symbol : ∀ s : Sextet, sextet? (symbol s) = some s := by decide

example : encode [0x30, 0x00, 0xF0, 0x25] = "MADwJQ==" := by cbv
example : decode "MADwJR==" = some [0x30, 0x00, 0xF0, 0x25] := by cbv
example : decode "MADwJQ=" = none := by cbv
example : decode "MADwJQ===" = none := by cbv
example : decode "MADw====" = none := by cbv

end LittleComputer.Base64
