import TestGrid.Roster
import TestGrid.Journal.Logger

/-!
# Journals

A journal has a level, maybe a log file, and loggers, in the order in which
they came into being. The loggers that were made with success are *known* by
the names under which they were asked for. A logger whose log file could not be
opened has come into being too, with its level, but is not known.

A new journal keeps records from the level `info` on, in no file, and knows the
loggers of the pipeline and the command line; the root is there, but not known.

* `Journal.threshold` is the level that counts for a logger: its own, or that of
  the next one above it that has one.
-/

namespace TestGrid

open Files

/-- The loggers with what they have in common. -/
structure Journal where
  /-- The level of all loggers at the last set-up. -/
  level : Level
  /-- The log file of the last set-up, as it was named. -/
  file : Option Path
  /-- The loggers, in the order in which they came into being. -/
  loggers : Roster Text Logger
  /-- The names by which loggers are known, in the order in which they were
      first asked for. -/
  names : List Text
  deriving DecidableEq

namespace Journal

/-- The journal at the start of a program. -/
def fresh : Journal where
  level := .info
  file := none
  loggers := .ofList [
    (Logger.root, { level := .warning }),
    (Speaker.pipeline, { level := .info, handlers := [.screen] }),
    (Speaker.commandLine, { level := .info, handlers := [.screen] })]
  names := [Speaker.pipeline, Speaker.commandLine]

/-- The logger that answers to a name, if it has come into being. -/
def logger? (j : Journal) (name : Text) : Option Logger := j.loggers.get? (Logger.nameFor name)

/-- The level that a logger was given last. -/
def levelOf (j : Journal) (name : Text) : Level := ((j.logger? name).map Logger.level).getD .unset

/-- Whether a logger came into being before another one. -/
def isOlder (j : Journal) (a b : Text) : Bool := j.loggers.keys.idxOf a < j.loggers.keys.idxOf b

/-- Whether a logger is there to be the next one above another. The root does
    not give way to a newer logger whose name its own name begins with. -/
def canBeAbove (j : Journal) (upper name : Text) : Bool :=
  j.loggers.contains upper && (j.isOlder upper name || !upper.isPrefixOf Logger.root)

/-- The level from which on a logger keeps records: its own, or else that of the
    next one above it. If the root has none either, it is zero. -/
def threshold (j : Journal) (name : Text) : Level :=
  if j.levelOf name ≠ .unset then j.levelOf name
  else
    match _h : (Logger.above name).find? (j.canBeAbove · name) with
    | some upper => j.threshold upper
    | none => j.levelOf Logger.root
termination_by name.length
decreasing_by exact Logger.length_lt_of_mem_above (List.mem_of_find?_eq_some _h)

/-- Whether a logger keeps records of a level. -/
def keeps (j : Journal) (name : Text) (level : Level) : Bool :=
  (j.threshold (Logger.nameFor name)).weight ≤ level.weight

/-- Changes the logger that answers to a name, if it has come into being. -/
def update (j : Journal) (name : Text) (f : Logger → Logger) : Journal :=
  match j.logger? name with
  | some l => { j with loggers := j.loggers.insert (Logger.nameFor name) (f l) }
  | none => j

end Journal

end TestGrid
