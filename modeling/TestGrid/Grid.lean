import TestGrid.Selection

/-!
# Grids

A lineup names one version for each component; a grid lists all lineups that
can be made from a selection. The versions of the first component vary fastest.
A grid is written line by line, each component with its version as a flag.

* `Grid.ofSelection` makes the grid of a selection;
* `Grid.toText` writes a grid, and `Grid.ofText` reads what is written.
-/

namespace TestGrid

/-- One version for each component, in the order of the components. -/
abbrev Lineup := List (Text × Text)

namespace Lineup

/-- A lineup with one more component. -/
def extend (lineup : Lineup) (component version : Text) : Lineup :=
  lineup ++ [(component, version)]

/-- The version of each component, the last one if it is named repeatedly. -/
def toRoster (lineup : Lineup) : Roster Text Text := .ofList lineup

/-- The components with their versions, each around a colon. -/
def pairs (lineup : Lineup) : List Text := lineup.map fun (c, v) => c ++ ':' :: v

/-- A lineup in one line, as its pairs. -/
def toText (lineup : Lineup) : Text := Text.joined [' '] lineup.pairs

/-- The flag that sets the version of a component. -/
def flag (component version : Text) : Text := '-' :: 'D' :: component ++ '=' :: version

/-- A lineup in one line, as its flags. -/
def flags (lineup : Lineup) : Text := Text.joined [' '] (lineup.map fun (c, v) => flag c v)

/-- The component and the version of a flag. -/
def readFlag : Text → Option (Text × Text)
  | '-' :: 'D' :: t => Text.cut '=' t
  | _ => none

/-- The lineup of the flags in a line. -/
def ofFlags (line : Text) : Option Lineup := (line.pieces (· = ' ')).mapM readFlag

end Lineup

/-- Lineups, in order. -/
abbrev Grid := List Lineup

namespace Grid

/-- All lineups with one more component, for each of its versions in turn. -/
def cross (grid : Grid) (component : Text) (versions : List Text) : Grid :=
  versions.flatMap fun v => grid.map (·.extend component v)

/-- All lineups that take one version of each component. -/
def spread (entries : List (Text × List Text)) : Grid :=
  entries.foldl (fun grid (component, versions) => grid.cross component versions) [[]]

/-- The grid of a selection. A grid has at least one component and one
    lineup. -/
def ofSelection (selection : Selection) : Except Fault Grid :=
  let grid := spread selection.entries
  if selection.isEmpty || grid.isEmpty then .error .emptyGrid else .ok grid

/-- A grid as it is written, one line for each lineup. -/
def toText (grid : Grid) : Text := grid.flatMap fun lineup => lineup.flags ++ ['\n']

/-- The grid of the lines of a text, the last of which must be ended too. -/
def ofText (t : Text) : Option Grid := ((t.pieces (· = '\n')).dropLast).mapM Lineup.ofFlags

/-! ### Laws -/

/-- Every lineup is extended by every version. -/
theorem mem_cross {grid : Grid} {component : Text} {versions : List Text} {l : Lineup} :
    l ∈ grid.cross component versions ↔
      ∃ v ∈ versions, ∃ l' ∈ grid, l'.extend component v = l := by
  simp [cross, List.mem_flatMap, List.mem_map]

/-- The lineups with the first version come first. -/
theorem cross_cons (grid : Grid) (component v : Text) (vs : List Text) :
    grid.cross component (v :: vs) =
      grid.map (·.extend component v) ++ grid.cross component vs := rfl

/-- There is one lineup for each pair of a version and a lineup before. -/
theorem length_cross (grid : Grid) (component : Text) (versions : List Text) :
    (grid.cross component versions).length = versions.length * grid.length := by
  induction versions with
  | nil => simp [cross]
  | cons v vs ih =>
    rw [cross_cons, List.length_append, List.length_map, ih, List.length_cons, Nat.succ_mul,
      Nat.add_comm]

end Grid

end TestGrid
