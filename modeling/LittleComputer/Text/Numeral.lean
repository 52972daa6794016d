import LittleComputer.Text.Digit

/-!
# Numerals

Integers as people write them: an optional sign and digits, which may be grouped by single
underscores, with any blanks around.  A *decimal* has no other form; a *literal* may name its base
by a leading `0x`, `0o` or `0b`, and then a decimal must not begin with a zero, unless it is zero.
-/

namespace LittleComputer.Text

/-- The number that a list of digits writes in a base, most significant first. -/
def ofDigits (base : Nat) (digits : List Nat) : Nat :=
  digits.foldl (fun value digit => value * base + digit) 0

/-- The digit of a base that a character stands for. -/
def digitIn? (base : Nat) (c : Char) : Option Nat := (digit? c).filter (· < base)

/-- Reads digits of a base, grouped by single underscores, to the end: neither the first character
nor the last one is an underscore. -/
def digits? (base : Nat) : List Char → Option (List Nat)
  | [] => none
  | [c] => (digitIn? base c).map ([·])
  | c :: '_' :: rest => do
    let digit ← digitIn? base c
    return digit :: (← digits? base rest)
  | c :: rest => do
    let digit ← digitIn? base c
    return digit :: (← digits? base rest)

/-- Reads a natural number in a base. -/
def natural? (base : Nat) (cs : List Char) : Option Nat := (digits? base cs).map (ofDigits base)

/-- Characters without the blanks at both ends. -/
def trimmed (cs : List Char) : List Char :=
  ((cs.dropWhile isBlank).reverse.dropWhile isBlank).reverse

/-- The characters of a numeral: without the blanks at both ends, and with ASCII digits. -/
def numeral (s : String) : List Char := (trimmed s.toList).map plainDigit

/-- Reads an optional sign, and what follows it by `read`. -/
def signed? (read : List Char → Option Nat) : List Char → Option Int
  | '-' :: rest => (read rest).map fun n => -(n : Int)
  | '+' :: rest => (read rest).map fun n => (n : Int)
  | cs => (read cs).map fun n => (n : Int)

/-- Reads the digits after the mark of a base; one underscore may stand between. -/
def afterMark? (base : Nat) : List Char → Option Nat
  | '_' :: rest => natural? base rest
  | rest => natural? base rest

/-- Reads a natural number that may name its base. -/
def marked? : List Char → Option Nat
  | '0' :: 'x' :: rest | '0' :: 'X' :: rest => afterMark? 16 rest
  | '0' :: 'o' :: rest | '0' :: 'O' :: rest => afterMark? 8 rest
  | '0' :: 'b' :: rest | '0' :: 'B' :: rest => afterMark? 2 rest
  | '0' :: rest => (natural? 10 ('0' :: rest)).filter (· = 0)
  | cs => natural? 10 cs

/-- Reads a decimal integer. -/
def decimal? (s : String) : Option Int := signed? (natural? 10) (numeral s)

/-- Reads an integer literal. -/
def literal? (s : String) : Option Int := signed? marked? (numeral s)

example : decimal? " -1_000\n" = some (-1000) := by cbv
example : decimal? "007" = some 7 := by cbv
example : decimal? "1__0" = none := by cbv
example : decimal? "0x10" = none := by cbv
example : decimal? "" = none := by cbv
example : literal? "0x_30" = some 48 := by cbv
example : literal? "-0b101" = some (-5) := by cbv
example : literal? "00_0" = some 0 := by cbv
example : literal? "012" = none := by cbv
example : literal? "0x" = none := by cbv
example : literal? "0x__3" = none := by cbv

end LittleComputer.Text
