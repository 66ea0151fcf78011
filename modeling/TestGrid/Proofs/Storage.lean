import TestGrid.Proofs.Journal
import TestGrid.Proofs.Tree
import TestGrid.Storage

/-!
# Files of runs that keep no log file

A file that holds a text is read to it (`reads_readText`), and a rule book in it
is read to what its text says (`reads_readRules`). At a path where a file can be
opened, below directories that can be made, every grid is stored
(`exists_leads_save`), and at no other one (`exists_leads_save_error`). Either way
all other files stay as they are.
-/

namespace TestGrid.Storage

open Fallible Files Work Journal

variable {directory : Path} {tree : Tree}

/-- The path, seen from the directory, leads to a file that holds the text. -/
def HasText (directory : Path) (tree : Tree) (path : Path) (t : Text) : Prop :=
  path.hasNull = false ∧ ∃ bytes,
    tree.look (path.seenFrom directory) path = .ok (some (.file bytes)) ∧ Text.decode bytes = .ok t

/-- The directories on the way to the path, seen from the directory, are there or
    can be made, and then a file can be opened at its end. -/
def CanStore (directory : Path) (tree : Tree) (path : Path) : Prop :=
  (path.seenFrom directory).hasNull = false ∧ ∃ tree' opened,
    tree.makeDirectories (path.seenFrom directory).parent = (tree', .ok ()) ∧
      tree'.openFile (path.seenFrom directory) path = .ok opened

/-- The file at the path has the content in the second tree, and all other files
    are those of the first tree. -/
def Stores (directory : Path) (tree tree' : Tree) (path : Path) (content : ByteArray) : Prop :=
  ∃ l, tree'.locate (path.seenFrom directory) path = .ok l ∧
    tree'.get? l = some (.file content) ∧
    ∀ l', l' ≠ l → ∀ b, tree'.get? l' = some (.file b) ↔ tree.get? l' = some (.file b)

section HasText

variable {path : Path} {t : Text} (h : HasText directory tree path t)

include h

theorem exists_reads_readBytes :
    ∃ bytes, Reads directory tree (readBytes path) (.ok bytes) ∧ Text.decode bytes = .ok t := by
  obtain ⟨hn, bytes, hl, hd⟩ := h
  refine ⟨bytes, ?_, hd⟩
  rw [readBytes]
  refine (reads_fromRoot path).andThen ?_
  dsimp only
  rw [if_neg (Bool.eq_false_iff.1 hn)]
  refine leads_get fun w hw => ?_
  rw [hw.tree, hl]
  exact reads_pure bytes

theorem reads_checkFile : Reads directory tree (checkFile path) (.ok ()) := by
  obtain ⟨bytes, hb, -⟩ := exists_reads_readBytes h
  exact hb.andThen (reads_pure ())

/-- A file that holds a text is read to the text with its ends of line unified. -/
theorem reads_readText (kind : InputKind) :
    Reads directory tree (readText kind path) (.ok t.unifyBreaks) := by
  obtain ⟨bytes, hb, hd⟩ := exists_reads_readBytes h
  rw [readText]
  refine hb.andThen ?_
  rw [hd]
  exact reads_pure _

theorem reads_readRuleText : Reads directory tree (readRuleText path) (.ok t.unifyBreaks) :=
  (reads_appear _).andThen (reads_readText h .rules)

/-- A rule book is read to what the text of its file says. -/
theorem reads_readRules : Reads directory tree (readRules path) (RuleBook.ofText t.unifyBreaks) :=
  (reads_readRuleText h).andThen ((reads_takeAll _).andThen (reads_liftExcept _))

end HasText

section CanStore

variable {tree' : Tree} {path : Path}

/-- A directory above has no null character, if the path has none. -/
theorem hasNull_parent {p : Path} (h : p.hasNull = false) : p.parent.hasNull = false := by
  rw [Path.hasNull, List.any_eq_false] at h ⊢
  exact fun part hp => h part (List.dropLast_subset _ hp)

/-- Directories are made for a path as far as they can be. -/
theorem leads_makeParent (hn : (path.seenFrom directory).parent.hasNull = false)
    {result : Except SystemFault Unit}
    (hm : tree.makeDirectories (path.seenFrom directory).parent = (tree', result)) :
    Leads directory tree tree' (makeParent path)
      ((result.map fun _ => (path.seenFrom directory).parent).mapError
        (.noDirectory (path.seenFrom directory).parent)) := by
  rw [makeParent]
  refine (reads_fromRoot path).andThen ?_
  dsimp only
  rw [if_neg (Bool.eq_false_iff.1 hn)]
  refine leads_get fun w hw => ?_
  rw [hw.tree, hm]
  refine Leads.andThen (leads_modify fun w hw => ⟨hw.directory, rfl, hw.onScreen⟩) ?_
  cases result with
  | ok _ => exact reads_pure _
  | error cause => exact reads_throw _

theorem leads_writeText (hn : (path.seenFrom directory).hasNull = false) {t : Text}
    (hw : tree.write (path.seenFrom directory) path (Text.encode t) = .ok tree') :
    Leads directory tree tree' (writeText path t) (.ok ()) := by
  rw [writeText]
  refine (reads_fromRoot path).andThen ?_
  dsimp only
  rw [if_neg (Bool.eq_false_iff.1 hn)]
  refine leads_get fun w hs => ?_
  rw [hs.tree, hw]
  exact leads_modify fun w hs => ⟨hs.directory, rfl, hs.onScreen⟩

/-- Nothing is written to a path with a null character, or where no file can be
    opened. -/
theorem exists_reads_writeText_error (t : Text)
    (h : (path.seenFrom directory).hasNull = true ∨ ∃ cause,
      tree.write (path.seenFrom directory) path (Text.encode t) = .error cause) :
    ∃ f : Fault, Reads directory tree (writeText path t) (.error f) ∧
      f.exitStatus?.getD 1 = 1 := by
  rw [writeText]
  by_cases hn : (path.seenFrom directory).hasNull = true
  · refine ⟨.nullCharacter, (reads_fromRoot path).andThen ?_, rfl⟩
    dsimp only
    rw [if_pos hn]
    exact (reads_throw _).stops
  · obtain ⟨cause, hw⟩ := h.resolve_left hn
    refine ⟨.notWritten cause, (reads_fromRoot path).andThen ?_, rfl⟩
    dsimp only
    rw [if_neg hn]
    refine leads_get fun w hs => ?_
    rw [hs.tree, hw]
    exact (reads_tell _ _ _).andThen (reads_throw _)

/-- Where a file can be opened, a grid is stored, and what is written is
    returned. -/
theorem exists_leads_save (h : CanStore directory tree path) (grid : Grid) :
    ∃ tree', Leads directory tree tree' (save grid (some path) none) (.ok grid.toText) ∧
      Stores directory tree tree' path (Text.encode grid.toText) := by
  obtain ⟨hn, tree₁, ⟨l, before⟩, hm, ho⟩ := h
  have hsame : tree.SameFiles tree₁ := by
    have hmade := tree.sameFiles_makeDirectories (path.seenFrom directory).parent
    rwa [hm] at hmade
  have hw : tree₁.write (path.seenFrom directory) path (Text.encode grid.toText) =
      .ok (tree₁.put l (.file (Text.encode grid.toText))) := by
    rw [Tree.write, ho]
    rfl
  refine ⟨tree₁.put l (.file (Text.encode grid.toText)), ?_, l, ?_, ?_, fun l' hne b => ?_⟩
  · refine (reads_appear _).andThen ((leads_makeParent (hasNull_parent hn) hm).andThen ?_)
    exact (leads_writeText hn hw).andThen ((reads_tell _ _ _).andThen (reads_pure _))
  · exact (Tree.keeps_write hw).locate (Tree.openFile_eq_ok ho).1
  · exact Tree.get?_put_of_openFile ho _
  · exact (Tree.get?_put_eq_file_iff_of_openFile ho _ hne).trans (hsame l' b)

/-- Where no file can be opened, no grid is stored, and no file is changed. -/
theorem exists_leads_save_error (h : ¬CanStore directory tree path) (grid : Grid) :
    ∃ tree' f, Leads directory tree tree' (save grid (some path) none) (.error f) ∧
      tree.SameFiles tree' ∧ f.exitStatus?.getD 1 = 1 := by
  by_cases hnull : (path.seenFrom directory).parent.hasNull = true
  · have hparent : Reads directory tree (makeParent path) (.error .nullCharacter) := by
      rw [makeParent]
      refine (reads_fromRoot path).andThen ?_
      dsimp only
      rw [if_pos hnull]
      exact (reads_throw _).stops
    exact ⟨tree, _, (reads_appear _).andThen hparent.stops, .refl tree, rfl⟩
  · have hsame := tree.sameFiles_makeDirectories (path.seenFrom directory).parent
    rcases hm : tree.makeDirectories (path.seenFrom directory).parent with ⟨tree₁, result⟩
    rw [hm] at hsame
    have hparent := leads_makeParent (Bool.eq_false_iff.2 hnull) hm
    cases result with
    | error cause => exact ⟨tree₁, _, (reads_appear _).andThen hparent.stops, hsame, rfl⟩
    | ok _ =>
      have hwrite : (path.seenFrom directory).hasNull = true ∨ ∃ cause,
          tree₁.write (path.seenFrom directory) path (Text.encode grid.toText) = .error cause := by
        refine or_iff_not_imp_left.2 fun hn => ?_
        rcases exists_ok_or_error (tree₁.openFile (path.seenFrom directory) path) with
          ⟨opened, ho⟩ | ⟨cause, ho⟩
        · exact absurd ⟨Bool.eq_false_iff.2 hn, tree₁, opened, hm, ho⟩ h
        · exact ⟨cause, by rw [Tree.write, ho]; rfl⟩
      obtain ⟨f, hf, hs⟩ := exists_reads_writeText_error grid.toText hwrite
      exact ⟨tree₁, f, (reads_appear _).andThen (hparent.andThen hf.stops), hsame, hs⟩

end CanStore

end TestGrid.Storage
