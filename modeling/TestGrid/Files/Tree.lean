import TestGrid.Files.Node
import TestGrid.Files.Path
import TestGrid.Text.Encoding

/-!
# File trees

A tree holds what is below the root directory, each node at its location. A
path finds its location name by name: `..` goes up, any other name must stand
in the directory reached so far. Names and paths have limits to their lengths.
The operations are those that a program asks of its system: to look something
up, to make directories, to write a file anew or at its end. An operation that
fails says why and for which path.

* `Tree.locate` follows a path;
* `Tree.look` looks up what is there;
* `Tree.makeDirectories` makes a directory and those above it; what it has made
  stays, also if it fails later;
* `Tree.write` and `Tree.append` store bytes in a file.
-/

namespace TestGrid.Files

/-- Why the system refuses an operation. -/
inductive Refusal where
  | missing
  | exists
  | notADirectory
  | isADirectory
  | tooLong
  deriving DecidableEq, Repr

/-- The number of a refusal. -/
def Refusal.number : Refusal → Nat
  | missing => 2
  | «exists» => 17
  | notADirectory => 20
  | isADirectory => 21
  | tooLong => 36

/-- The wording of a refusal. -/
def Refusal.message : Refusal → String
  | missing => "No such file or directory"
  | «exists» => "File exists"
  | notADirectory => "Not a directory"
  | isADirectory => "Is a directory"
  | tooLong => "File name too long"

/-- A refused operation, with the path it was asked for. -/
structure SystemFault where
  refusal : Refusal
  path : Path
  deriving DecidableEq, Repr

/-- The wording of a refused operation. -/
def SystemFault.message (f : SystemFault) : String :=
  s!"[Errno {f.refusal.number}] {f.refusal.message}: {Text.quoted f.path.toText}"

/-- The files and directories of a system. -/
structure Tree where
  /-- The entries of the root directory. -/
  entries : List (Text × Node)
  deriving DecidableEq

namespace Tree

/-- The tree that has nothing but its root. -/
def empty : Tree := ⟨[]⟩

/-- The root directory. -/
def root (t : Tree) : Node := .directory t.entries

/-- What stands at a location. -/
def get? (t : Tree) (l : Location) : Option Node := t.root.get? l

/-- Puts a node at a location, below directories that are made as needed. -/
def put (t : Tree) (l : Location) (n : Node) : Tree := ⟨(n.put t.root l).entries⟩

/-- Puts a directory at a location, unless something stands there. -/
def putDirectory (t : Tree) (l : Location) : Tree :=
  if (t.get? l).isSome then t else t.put l (.directory [])

/-- All nodes but the root, a directory in front of what is in it. -/
def toList (t : Tree) : List (Location × Node) := Node.nodesOf [] t.entries

/-- The most bytes that a name may have. -/
def nameLimit : Nat := 255

/-- The most bytes that a path may have as it is written. -/
def pathLimit : Nat := 4095

/-- The location that some more names lead to from a location, if each of them
    but the last is found in a directory. -/
def walk (t : Tree) : Location → List Text → Except Refusal Location
  | here, [] => .ok here
  | here, name :: names =>
    match t.get? here with
    | none => .error .missing
    | some (.file _) => .error .notADirectory
    | some (.directory _) =>
      if nameLimit < (Text.encode name).size then .error .tooLong
      else t.walk (if name = ['.', '.'] then here.dropLast else here ++ [name]) names

/-- The location that a path from the root leads to, whether there is something
    or not. The path is written as `shown`, and the fault names it so. -/
def locate (t : Tree) (p shown : Path) : Except SystemFault Location :=
  if pathLimit < (Text.encode shown.toText).size then .error ⟨.tooLong, shown⟩
  else (t.walk [] p.parts).mapError (⟨·, shown⟩)

/-- What stands at the end of a path from the root, if the system can tell: it
    cannot if the path is too long. -/
def look (t : Tree) (p shown : Path) : Except SystemFault (Option Node) :=
  match t.locate p shown with
  | .ok l => .ok (t.get? l)
  | .error f => if f.refusal = .tooLong then .error f else .ok none

/-- Whether a path from the root leads to a directory. -/
def isDirectory (t : Tree) (p : Path) : Bool :=
  match t.look p p with
  | .ok (some n) => n.isDirectory
  | _ => false

/-- Makes one directory, in a directory that is there. -/
def makeDirectory (t : Tree) (p : Path) : Except SystemFault Tree :=
  match t.locate p p with
  | .error f => .error f
  | .ok l => if (t.get? l).isSome then .error ⟨.exists, p⟩ else .ok (t.putDirectory l)

/-- Makes a directory unless it is there, in a directory that is there. -/
def ensureDirectory (t : Tree) (p : Path) : Except SystemFault Tree :=
  match t.makeDirectory p with
  | .ok t' => .ok t'
  | .error f => if f.refusal ≠ .missing && t.isDirectory p then .ok t else .error f

/-- Makes the directory that some names lead to from an anchor, and before it
    the directories above which are missing. The names come last one first. -/
def makeAll (anchor : Anchor) : List Text → Tree → Tree × Except SystemFault Unit
  | [], t =>
    match t.ensureDirectory ⟨anchor, []⟩ with
    | .ok t' => (t', .ok ())
    | .error f => (t, .error f)
  | name :: above, t =>
    let p : Path := ⟨anchor, (name :: above).reverse⟩
    match t.ensureDirectory p with
    | .ok t' => (t', .ok ())
    | .error f =>
      if f.refusal = .missing then
        -- A directory above is missing: it is made first, then this one is tried again.
        match makeAll anchor above t with
        | (t', .error f') => (t', .error f')
        | (t', .ok ()) =>
          match t'.ensureDirectory p with
          | .ok t'' => (t'', .ok ())
          | .error f' => (t', .error f')
      else (t, .error f)

/-- Makes a directory and those above it, unless they are there. -/
def makeDirectories (t : Tree) (p : Path) : Tree × Except SystemFault Unit :=
  makeAll p.anchor p.parts.reverse t

/-- Opens a file for writing: the location to write to and what is there. The
    fault names the path as `shown`. -/
def openFile (t : Tree) (p shown : Path) : Except SystemFault (Location × ByteArray) :=
  match t.locate p shown with
  | .error f => .error f
  | .ok l =>
    match t.get? l with
    | some (.directory _) => .error ⟨.isADirectory, shown⟩
    | some (.file b) => .ok (l, b)
    | none => .ok (l, .empty)

/-- Writes a file anew. -/
def write (t : Tree) (p shown : Path) (content : ByteArray) : Except SystemFault Tree := do
  let (l, _) ← t.openFile p shown
  return t.put l (.file content)

/-- Writes to the end of a file, which is made if it is missing. -/
def append (t : Tree) (p shown : Path) (content : ByteArray) : Except SystemFault Tree := do
  let (l, before) ← t.openFile p shown
  return t.put l (.file (before ++ content))

end Tree

end TestGrid.Files
