import Std.Time
import TestGrid.Command.Invocation

/-!
# The program

The command line of the library. The invocation is read from the arguments and
the environment; what stands on the way to its paths is taken from the system
into a file tree; the run is performed on this tree; what it has changed there
is written back, and what it has shown is printed. The run is performed twice:
the first time is a rehearsal, from which the gauge takes the seconds.
-/

namespace TestGrid.Program

open Files Command

/-- The paths that an invocation names. -/
def pathsOf : Invocation → List Path
  | .generate o => [o.settings.rules, o.settings.output, o.logFile].filterMap id
  | .explain o => [o.rules].filterMap id
  | _ => []

/-- The locations on the way from a location along some names. -/
def visited : Location → List Text → List Location
  | here, [] => [here]
  | here, name :: names =>
    here :: visited (if name = ['.', '.'] then here.dropLast else here ++ [name]) names

/-- The locations that matter to a path seen from a directory. -/
def locations (directory p : Path) : List Location :=
  let p := p.seenFrom directory
  visited [] p.parts ++ visited [] p.normalized.parts

/-- A location as the system names it. -/
def systemName (l : Location) : String := String.ofList ('/' :: Text.joined ['/'] l)

/-- Takes what the system has at a location into a tree. -/
def readNode (t : Tree) (l : Location) : IO Tree := do
  let path := (← IO.currentDir) / systemName l
  if ← path.isDir then return t.putDirectory l
  if ← path.pathExists then return t.put l (.file (← IO.FS.readBinFile path))
  return t

/-- A tree with what the system has at some locations. -/
def readTree (ls : List Location) : IO Tree := ls.foldlM readNode Tree.empty

/-- Writes back what differs between two trees. -/
def writeTree (before after : Tree) : IO Unit := do
  for (l, node) in after.toList do
    match node with
    | .directory _ => if (before.get? l).isNone then IO.FS.createDirAll (systemName l)
    | .file content =>
      unless before.get? l = some node do IO.FS.writeBinFile (systemName l) content

/-- The content of a cell. -/
def cellText : Cell → Text
  | .marked t => t
  | .styled t _ => t

/-- The lines that print a drawing. -/
def printed : Drawing → List Text
  | .table title columns rows =>
    let row (ts : List Text) : Text := Text.joined [' ', '|', ' '] ts
    title :: row (columns.map Column.header) :: rows.map fun cells => row (cells.map cellText)
  | .panel body title _ => (title.map fun t => [t]).getD [] ++ [cellText body]
  | .line t => [t]

/-- Prints drawings to a stream. -/
def print (stream : IO.FS.Stream) (ds : List Drawing) : IO Unit := do
  for d in ds do
    for t in printed d do
      stream.putStrLn (toString t)

/-- The environment variables of the settings. -/
def readEnvironment : IO Environment := do
  let mut env : Environment := ∅
  for s in Setting.all do
    match ← IO.getEnv s.variableName with
    | some v => env := env.insert s.variableName.toList v.toList
    | none => pure ()
  return env

/-- A number of nanoseconds in seconds with four places. -/
def secondsText (nanoseconds : Nat) : Text :=
  let units := nanoseconds / 100000
  let places := Text.ofNat (units % 10000)
  Text.ofNat (units / 10000) ++ '.' :: List.replicate (4 - places.length) '0' ++ places

/-- The time of day as log files show it. -/
def readMoment : IO Text := do
  let now ← Std.Time.PlainDateTime.now
  return (now.format "uuuu-MM-dd HH:mm:ss,SSS").toList

/-- Runs the program; the status with which it ends. -/
def run (args : List String) : IO UInt32 := do
  let invocation := Invocation.ofArguments (← readEnvironment) (args.map String.toList)
  let directory := Path.ofText (← IO.currentDir).toString.toList
  let tree ← readTree (visited [] directory.parts ++ (pathsOf invocation).flatMap (locations directory))
  let before : Workspace := { directory, tree, gauge := ⟨← readMoment, [], []⟩ }
  -- The rehearsal changes nothing; only its duration counts.
  let start ← IO.monoNanosNow
  let _ ← IO.lazyPure fun _ => invocation.run.perform before
  let seconds := secondsText ((← IO.monoNanosNow) - start)
  let gauge : Gauge := ⟨← readMoment, seconds, "0.00".toList⟩
  let (result, after) := invocation.run.perform { before with gauge }
  writeTree tree after.tree
  let stderr ← IO.getStderr
  for r in after.records do
    stderr.putStrLn s!"{r.level.name} {r.speaker}: {r.message}"
  print (← IO.getStdout) after.console
  print stderr after.errorConsole
  if let .error f := result then stderr.putStrLn f.message
  return (exitStatus result).toUInt32

end TestGrid.Program

/-- The entry point of the program. -/
def main (args : List String) : IO UInt32 := TestGrid.Program.run args
