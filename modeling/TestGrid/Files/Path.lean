import TestGrid.Text.Quoted

/-!
# Paths

A path is an anchor, which says where it starts, and the names on the way. A
text is read as a path without regard to repeated slashes, to names `.` and to
a slash at the end; names `..` stay, for what they mean depends on the files
(see `TestGrid.Files.Tree`). Two slashes in front are an anchor of their own,
more than two are the same as one.

* `Path.ofText` and `Path.toText` read and write a path;
* `Path.seenFrom` gives the same place from the root;
* `Path.normalized` carries the names `..` out on the spelling alone.
-/

namespace TestGrid.Files

/-- Where a path starts. -/
inductive Anchor where
  /-- In the working directory. -/
  | here
  /-- In the root directory. -/
  | root
  /-- In the root directory, written with two slashes. -/
  | doubleRoot
  deriving DecidableEq, Repr

/-- How the anchor is written in front of a path. -/
def Anchor.toText : Anchor → Text
  | here => []
  | root => ['/']
  | doubleRoot => ['/', '/']

/-- The anchor of a written path. -/
def Anchor.ofText : Text → Anchor
  | '/' :: '/' :: '/' :: _ => root
  | '/' :: '/' :: _ => doubleRoot
  | '/' :: _ => root
  | _ => here

/-- A path: an anchor and the names on the way. -/
structure Path where
  anchor : Anchor
  parts : List Text
  deriving DecidableEq, Repr

namespace Path

/-- Whether a piece of a written path is a name on the way. -/
def isPart (t : Text) : Bool := !t.isEmpty && t ≠ ['.']

/-- The path that a text writes. -/
def ofText (t : Text) : Path := ⟨.ofText t, (t.pieces (· = '/')).filter isPart⟩

/-- A path as it is written; the path that goes nowhere is a dot. -/
def toText (p : Path) : Text :=
  match p.anchor.toText ++ Text.joined ['/'] p.parts with
  | [] => ['.']
  | t => t

instance : ToString Path := ⟨fun p => toString p.toText⟩

/-- Whether a name on the way has a null character, so that the path leads
    nowhere in any system. -/
def hasNull (p : Path) : Bool := p.parts.any (·.contains '\x00')

/-- A path as seen from a directory. -/
def seenFrom (p dir : Path) : Path :=
  match p.anchor with
  | .here => ⟨dir.anchor, dir.parts ++ p.parts⟩
  | _ => p

/-- The path without its last name. -/
def parent (p : Path) : Path := ⟨p.anchor, p.parts.dropLast⟩

/-- The names left when each `..` takes away the name in front of it, without
    regard to files; there is nothing above the root. -/
def withoutDots (parts : List Text) : List Text :=
  (parts.foldl (fun before part => if part = ['.', '.'] then before.drop 1 else part :: before)
    []).reverse

/-- A path from the root with its names `..` carried out on the spelling. -/
def normalized (p : Path) : Path := ⟨p.anchor, withoutDots p.parts⟩

end Path

end TestGrid.Files
