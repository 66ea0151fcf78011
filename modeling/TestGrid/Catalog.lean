import TestGrid.Fault

/-!
# Catalogs

A catalog gives components their candidate versions, in the order in which its
text first names them. The text is made of entries `component:version,…`
between semicolons or line feeds. A component may have several entries, whose
versions are put together; blank entries and blank versions say nothing.

* `Catalog.ofText` reads a catalog;
* `Catalog.toText` writes one, with one entry for each component.
-/

namespace TestGrid

/-- Components with their candidate versions. -/
abbrev Catalog := Roster Text (List Text)

namespace Catalog

/-- Whether a character stands between entries. -/
def separates (c : Char) : Bool := c = ';' || c = '\n'

/-- The component and the versions of an entry. -/
def readEntry (entry : Text) : Except Fault (Text × List Text) :=
  match entry.cut ':' with
  | none => .error (.badEntry entry.trim)
  | some (component, versions) =>
    let component := component.trim
    if component.isEmpty then .error (.badEntry entry.trim)
    else .ok (component, ((versions.pieces (· = ',')).map Text.trim).filter (!·.isEmpty))

/-- Adds versions to a component, which is entered if it is not there. -/
def add (catalog : Catalog) (component : Text) (versions : List Text) : Catalog :=
  catalog.alter component fun before => before.getD [] ++ versions

/-- Adds the versions of an entry. -/
def enter (catalog : Catalog) (entry : Text) : Except Fault Catalog :=
  if entry.trim.isEmpty then .ok catalog
  else return let (component, versions) := ← readEntry entry; catalog.add component versions

/-- The catalog of a text. -/
def ofText (text : Text) : Except Fault Catalog := (text.pieces separates).foldlM enter ∅

/-- An entry as it is written. -/
def entryText (component : Text) (versions : List Text) : Text :=
  component ++ ':' :: Text.joined [','] versions

/-- A catalog as it is written. -/
def toText (catalog : Catalog) : Text :=
  Text.joined [';'] (catalog.entries.map fun (component, versions) => entryText component versions)

end Catalog

end TestGrid
