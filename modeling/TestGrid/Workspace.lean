import TestGrid.Fault
import TestGrid.Display
import TestGrid.Journal.Basic

/-!
# Workspaces

What a run works on: a directory in a file tree, a journal, the records shown
on the screen, and the drawings on the two consoles. What clocks and meters
read is not computed here; their readings are given as a *gauge*.

A step of a run is a `Work`: it changes the workspace, and what it changed
before it failed stays changed.
-/

namespace TestGrid

open Files

/-- The readings of the instruments, as they are to be written. -/
structure Gauge where
  /-- The time at which a record is made. -/
  moment : Text
  /-- The seconds that an activity takes. -/
  seconds : Text
  /-- The megabytes that it takes at most. -/
  megabytes : Text
  deriving DecidableEq, Repr

/-- A record as the screen shows it. -/
structure Record where
  level : Level
  speaker : Text
  message : String
  deriving DecidableEq, Repr

/-- What a run works on. -/
structure Workspace where
  /-- The working directory, from the root. -/
  directory : Path
  tree : Tree
  journal : Journal := .fresh
  gauge : Gauge
  /-- The records on the screen. -/
  records : List Record := []
  /-- The drawings on the console. -/
  console : List Drawing := []
  /-- The drawings on the console for errors. -/
  errorConsole : List Drawing := []
  deriving DecidableEq

/-- A step of a run. -/
abbrev Work := ExceptT Fault (StateM Workspace)

namespace Work

/-- What a step does to a workspace, and its result. -/
def perform {α : Type} (work : Work α) (w : Workspace) : Except Fault α × Workspace := work.run.run w

/-- A path as seen from the root. -/
def fromRoot (p : Path) : Work Path := return p.seenFrom (← get).directory

/-- Shows drawings on the console. -/
def «show» (ds : List Drawing) : Work Unit :=
  modify fun w => { w with console := w.console ++ ds }

/-- Shows drawings on the console for errors. -/
def showError (ds : List Drawing) : Work Unit :=
  modify fun w => { w with errorConsole := w.errorConsole ++ ds }

end Work

end TestGrid
