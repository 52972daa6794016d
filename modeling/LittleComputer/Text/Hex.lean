/-!
# Hexadecimal numerals

Addresses and words are shown in upper-case hexadecimal, padded with zeros to a least width, and a
negative number has its sign before the digits.
-/

namespace LittleComputer.Text

/-- The upper-case hexadecimal digits of a number, without leading zeros. -/
def hexDigits (n : Nat) : List Char := (Nat.toDigits 16 n).map Char.toUpper

/-- A number in hexadecimal with at least `width` digits. -/
def hex (width n : Nat) : String :=
  let digits := hexDigits n
  String.ofList (List.replicate (width - digits.length) '0' ++ digits)

/-- An integer in hexadecimal, with a sign where it is negative. -/
def signedHex : Int → String
  | .ofNat n => hex 1 n
  | .negSucc n => "-" ++ hex 1 (n + 1)

/-- An address or word as it is shown to people: `0x` and at least four digits. -/
def address (n : Nat) : String := "0x" ++ hex 4 n

example : address 0x3000 = "0x3000" := by cbv
example : address 0x10000 = "0x10000" := by cbv
example : address 7 = "0x0007" := by cbv
example : signedHex (-1) = "-1" := by cbv
example : signedHex 0xF3 = "F3" := by cbv

end LittleComputer.Text
