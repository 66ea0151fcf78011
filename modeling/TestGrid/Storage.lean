import TestGrid.Grid
import TestGrid.Journal.Keeping
import TestGrid.Text.Lines

/-!
# Reading inputs and storing grids

How runs use their files. An input is checked to be a file before it is read;
it must hold a text in UTF-8, whose ends of line are unified. A grid is stored
in a file that is written anew, below directories that are made as needed. A
path with a null character leads to no input, and nothing can be written there.
-/

namespace TestGrid.Storage

open Files

/-- The bytes of the file at a path. -/
def readBytes (path : Path) : Work ByteArray := do
  let p ← Work.fromRoot path
  if path.hasNull then throw (.notAFile p)
  match (← get).tree.look p path with
  | .ok (some (.file bytes)) => return bytes
  | .ok _ => throw (.notAFile p)
  | .error cause => throw (.refused cause)

/-- Checks that there is a file at a path. -/
def checkFile (path : Path) : Work Unit := do
  let _ ← readBytes path

/-- Reads the text of an input. -/
def readText (kind : InputKind) (path : Path) : Work Text := do
  match Text.decode (← readBytes path) with
  | .ok t => return t.unifyBreaks
  | .error cause => throw (.unreadable kind path cause)

/-- Reads the text of a rule book. -/
def readRuleText (path : Path) : Work Text := do
  Journal.appear Speaker.ruleReader
  readText .rules path

/-- Reads a rule book. -/
def readRules (path : Path) : Work RuleBook := do
  let text ← readRuleText path
  Journal.takeAll (RuleBook.notes text)
  liftExcept (RuleBook.ofText text)

/-- Reads a catalog. -/
def readCatalog (path : Path) : Work Catalog := do
  liftExcept (Catalog.ofText (← readText .candidates path))

/-- Makes the directory for a file, and those above it. -/
def makeParent (path : Path) : Work Path := do
  let dir := (← Work.fromRoot path).parent
  if dir.hasNull then throw .nullCharacter
  let (tree, result) := (← get).tree.makeDirectories dir
  modify fun w => { w with tree }
  match result with
  | .ok () => return dir
  | .error cause => throw (.noDirectory dir cause)

/-- Writes a text to a file anew. -/
def writeText (path : Path) (t : Text) : Work Unit := do
  let p ← Work.fromRoot path
  if p.hasNull then throw .nullCharacter
  match (← get).tree.write p path (Text.encode t) with
  | .ok tree => modify fun w => { w with tree }
  | .error cause =>
    Journal.tell .error Speaker.writer
      s!"Failed to write version matrix to {path}: {cause.message}"
    throw (.notWritten cause)

/-- Stores a grid at a path, or else at a default path, and returns what is
    written. -/
def save (grid : Grid) (default path : Option Path) : Work Text := do
  Journal.appear Speaker.writer
  match path <|> default with
  | none => throw .noDestination
  | some path =>
    let content := grid.toText
    let _ ← makeParent path
    writeText path content
    Journal.tell .info Speaker.writer
      s!"Version matrix total: {grid.length}, list: \n{content}"
    return content

end TestGrid.Storage
