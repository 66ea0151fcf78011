import TestGrid.Text.Basic

/-!
# Notes

What a computation has to say about itself is a list of notes, in order. Notes
are made by the speakers of the program, each through a logger of its name
(see `TestGrid.Journal`). A speaker who appears is noted too, even if it then
says nothing, for its logger comes into being at this moment.
-/

namespace TestGrid

/-- How weighty a record is, by a number that grows with the weight; a few numbers
    have names. Zero is no level of its own: it is that of a logger that was
    never given one. A logger may be given any level; what the program says is
    said at `debug`, `info`, `warning` or `error`. -/
structure Level where
  weight : Int
  deriving DecidableEq, Repr

namespace Level

def unset : Level := ⟨0⟩
def debug : Level := ⟨10⟩
def info : Level := ⟨20⟩
def warning : Level := ⟨30⟩
def error : Level := ⟨40⟩
def critical : Level := ⟨50⟩

/-- The name of a level, which shows the number of those that have no name of their
    own. -/
def name : Level → String
  | ⟨0⟩ => "NOTSET"
  | ⟨10⟩ => "DEBUG"
  | ⟨20⟩ => "INFO"
  | ⟨30⟩ => "WARNING"
  | ⟨40⟩ => "ERROR"
  | ⟨50⟩ => "CRITICAL"
  | ⟨n⟩ => s!"Level {n}"

/-- The levels that have a name of their own. -/
def named : List Level := [unset, debug, info, warning, error, critical]

/-- The level of a name. -/
def ofName? (s : String) : Option Level := named.find? (·.name = s)

end Level

namespace Speaker

/-- Who speaks for the whole computation of a grid. -/
def pipeline : Text := "Pipeline".toList

/-- Who speaks for the command line. -/
def commandLine : Text := "CLI".toList

/-- Who speaks while a rule book is read. -/
def ruleReader : Text := "RuleFileParser".toList

/-- Who speaks while versions are selected. -/
def matcher : Text := "VersionMatcher".toList

/-- Who speaks while the grid is written. -/
def writer : Text := "MatrixFormatter".toList

/-- Who speaks about the time that things take. -/
def clock : Text := "Performance".toList

end Speaker

/-- A note of a computation. -/
inductive Note where
  /-- A speaker appears. -/
  | appear (speaker : Text)
  /-- A speaker says something. -/
  | record (level : Level) (speaker : Text) (message : String)
  /-- The time that an activity took is to be told. -/
  | timing (activity : String)
  deriving DecidableEq, Repr

end TestGrid
