import TestGrid.Text.Basic

/-!
# Drawings

What is shown on a console is a list of drawings: tables, panels and lines. A
cell is either a text in which marks such as `[bold]` have their meaning, or a
text that is shown as it is in one style. A shown text has no control
characters that would move the cursor of the console or ring its bell.
-/

namespace TestGrid

/-- Where the cells of a column stand. -/
inductive Justify where
  | left
  | center
  | right
  deriving DecidableEq, Repr

/-- The content of a cell or a panel. -/
inductive Cell where
  /-- A text with marks. -/
  | marked (t : Text)
  /-- A text as it is, in a style. -/
  | styled (t : Text) (style : String)
  deriving DecidableEq, Repr

/-- Whether a character would ring the bell or move the cursor, other than to
    the next line. -/
def isCursorControl (c : Char) : Bool :=
  let n := c.toNat
  n = 7 || n = 8 || n = 11 || n = 12 || n = 13

/-- A text shown as it is. -/
def Cell.shown (t : Text) (style : String) : Cell :=
  .styled (t.filter fun c => !isCursorControl c) style

/-- A column of a table. -/
structure Column where
  header : Text
  style : String := ""
  justify : Justify := .left
  noWrap : Bool := false
  deriving DecidableEq, Repr

/-- What is shown at once. -/
inductive Drawing where
  | table (title : Text) (columns : List Column) (rows : List (List Cell))
  | panel (body : Cell) (title : Option Text) (style : String)
  | line (t : Text)
  deriving DecidableEq, Repr

end TestGrid
