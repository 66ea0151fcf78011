import TestGrid.Text.Basic

/-!
# Lines

A text ends its lines by any of ten characters, or by a carriage return
followed by a line feed, which count as one end. A last line need not be
ended. A file may be read with `Text.unifyBreaks`, which leaves the line feed
as the only end among the line feed, the carriage return and their pair; the
other characters that end a line stay as they are.
-/

namespace TestGrid

/-- The characters that end a line. -/
def isBreak (c : Char) : Bool :=
  let n := c.toNat
  (10 ≤ n && n ≤ 13) || (28 ≤ n && n ≤ 30) || n == 0x85 || n == 0x2028 || n == 0x2029

namespace Text

/-- The lines of a text, without their ends. -/
def lines : Text → List Text
  | [] => []
  | '\r' :: '\n' :: r => [] :: lines r
  | c :: r => if isBreak c then [] :: lines r else consFirst c (lines r)

/-- A text with every carriage return, together with the line feed after it if
    there is one, written as a line feed. -/
def unifyBreaks : Text → Text
  | [] => []
  | '\r' :: '\n' :: r => '\n' :: unifyBreaks r
  | c :: r => (if c = '\r' then '\n' else c) :: unifyBreaks r

end Text

end TestGrid
