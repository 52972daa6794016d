import LittleComputer.Text.Printable

/-!
# Quoted texts

A text is quoted so that it can be read on one line: in single quotes, or in double quotes where
that saves escaping a single quote.  The quote itself, backslashes, tabs and line ends are escaped
by a backslash, and a character that cannot be shown by its code in hexadecimal: two, four or eight
digits, as many as it needs.
-/

namespace LittleComputer.Text

/-- The lower-case hexadecimal digits of a number, at least `width` of them. -/
def codeDigits (width n : Nat) : List Char :=
  let digits := Nat.toDigits 16 n
  List.replicate (width - digits.length) '0' ++ digits

/-- The code of a character as an escape sequence. -/
def escapeCode (c : Char) : List Char :=
  if c.toNat < 0x100 then '\\' :: 'x' :: codeDigits 2 c.toNat
  else if c.toNat < 0x10000 then '\\' :: 'u' :: codeDigits 4 c.toNat
  else '\\' :: 'U' :: codeDigits 8 c.toNat

/-- A character inside the given quotes. -/
def escape (quote c : Char) : List Char :=
  if c = quote ∨ c = '\\' then ['\\', c]
  else if c = '\t' then ['\\', 't']
  else if c = '\n' then ['\\', 'n']
  else if c = '\r' then ['\\', 'r']
  else if isPrintable c then [c]
  else escapeCode c

/-- The quotes that a text is put in. -/
def quoteFor (cs : List Char) : Char :=
  if cs.contains '\'' && !cs.contains '"' then '"' else '\''

/-- A text in quotes. -/
def quoted (s : String) : String :=
  let cs := s.toList
  let quote := quoteFor cs
  String.ofList (quote :: cs.flatMap (escape quote) ++ [quote])

example : quoted "abc" = "'abc'" := by cbv
example : quoted "it's" = "\"it's\"" := by cbv
example : quoted "'\"\n" = "'\\'\"\\n'" := by cbv
example : quoted "\x1b[" = "'\\x1b['" := by cbv

end LittleComputer.Text
