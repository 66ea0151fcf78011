import TestGrid.Storage

/-!
# The settings of a run

What is known about a run before it starts. The settings are checked before
anything is read, in the order in which they stand here, and the first that is
missing or wrong is the fault. A path that is written with blanks only is
missing; the path of the working directory is not.
-/

namespace TestGrid

open Files

/-- The settings of a run. -/
structure Settings where
  candidates : Option Text
  rules : Option Path
  output : Option Path
  /-- Whether literals of rules may stand in for candidates. -/
  fallback : Bool := true
  deriving DecidableEq, Repr

namespace Settings

/-- Whether a text is missing, or says nothing. -/
def saysNothing (t : Option Text) : Bool := (t.getD []).trim.isEmpty

/-- Checks the settings of a run that stores a grid, and returns them. -/
def check (s : Settings) : Work (Text × Path × Path) := do
  match s.candidates with
  | none => throw (.missing .candidates)
  | some candidates =>
    if saysNothing candidates then throw (.missing .candidates)
    match s.rules with
    | none => throw (.missing .rules)
    | some rules =>
      if saysNothing rules.toText then throw (.missing .rules)
      Storage.checkFile rules
      match s.output with
      | none => throw (.missing .output)
      | some output =>
        if saysNothing output.toText then throw (.missing .output)
        return (candidates, rules, output)

end Settings

end TestGrid
