import TestGrid.Text.Printable

/-!
# Quoted texts

A text inside a message that must show its limits is quoted: it stands between
apostrophes, or between double quotes if it has an apostrophe and no double
quote. The mark around it, the backslash and the characters without a printed
form are escaped, so a quoted text has no line end and says exactly which text
it quotes. Lists and tables of quoted texts stand in brackets and braces.
-/

namespace TestGrid.Text

/-- The mark that quotes a text: the apostrophe, unless only the double quote
    spares an escape. -/
def quoteMark (t : Text) : Char :=
  if t.contains '\'' && !t.contains '"' then '"' else '\''

/-- A number in base sixteen, in small digits, filled with zeros on the left up
    to a width. -/
def hexadecimal (width n : Nat) : Text :=
  let digits := Nat.toDigits 16 n
  List.replicate (width - digits.length) '0' ++ digits

/-- How a character is written between the marks. -/
def escaped (mark c : Char) : Text :=
  if c = mark ∨ c = '\\' then ['\\', c]
  else if c = '\n' then ['\\', 'n']
  else if c = '\r' then ['\\', 'r']
  else if c = '\t' then ['\\', 't']
  else if isPrintable c then [c]
  else if c.toNat < 0x100 then '\\' :: 'x' :: hexadecimal 2 c.toNat
  else if c.toNat < 0x10000 then '\\' :: 'u' :: hexadecimal 4 c.toNat
  else '\\' :: 'U' :: hexadecimal 8 c.toNat

/-- A text between quote marks. -/
def quoted (t : Text) : Text :=
  let mark := quoteMark t
  mark :: t.flatMap (escaped mark) ++ [mark]

/-- A list of quoted texts in brackets. -/
def quotedList (ts : List Text) : Text :=
  '[' :: joined [',', ' '] (ts.map quoted) ++ [']']

/-- A table of quoted texts in braces, each name with its list. -/
def quotedTable (rows : List (Text × List Text)) : Text :=
  '{' :: joined [',', ' '] (rows.map fun (name, ts) => quoted name ++ [':', ' '] ++ quotedList ts)
    ++ ['}']

end TestGrid.Text
