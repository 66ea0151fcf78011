import TestGrid.Proofs.Answering
import TestGrid.Proofs.Continuation
import TestGrid.Proofs.Generating
import TestGrid.Proofs.Upkeep

/-!
# Rule books in files

To read a rule book from a file is to parse the text that the file holds
(`Storage.read_as_parsed`). Two things stand between them.

* The ends of line are unified while the file is read. This leaves all lines as they
  are, and so their numbers (`Text.lines_unifyBreaks`).
* The reader appears before the file is opened, and then a log file may be made. A log
  file that is opened gets nothing yet, so that files hold what they have held
  (`Journal.sparing_appear`), even if the file of rules is the log file itself.

Reading and parsing are the same as steps, then: from every workspace they have the same
outcome and leave the same workspace behind. That is so if the log file is refused, too.
-/

namespace TestGrid

open Fallible Files Work Workspace

namespace Files.Tree

/-- Files of the first tree have the same content in the second one. -/
structure Spares (t t' : Tree) : Prop where
  keeps : t.Keeps t'
  files : ∀ l b, t.get? l = some (.file b) → t'.get? l = some (.file b)

variable {t t' t'' : Tree}

theorem Spares.refl (t : Tree) : t.Spares t := ⟨.refl t, fun _ _ h => h⟩

theorem Spares.trans (h : t.Spares t') (h' : t'.Spares t'') : t.Spares t'' :=
  ⟨h.keeps.trans h'.keeps, fun l b hb => h'.files l b (h.files l b hb)⟩

/-- An open file is what stands at its location. -/
theorem eq_of_openFile {p shown : Path} {l : Location} {before b : ByteArray}
    (ho : t.openFile p shown = .ok (l, before)) (hb : t.get? l = some (.file b)) : before = b := by
  rw [openFile, (openFile_eq_ok ho).1] at ho
  dsimp only at ho
  rw [hb] at ho
  cases ho
  rfl

/-- To append nothing to a file spares all of them. -/
theorem spares_append {p shown : Path} (h : t.append p shown .empty = .ok t') : t.Spares t' := by
  refine ⟨keeps_append h, fun l b hb => ?_⟩
  obtain ⟨⟨l', before⟩, ho, h⟩ := bind_eq_ok.1 h
  cases h
  by_cases hl : l = l'
  · subst hl
    obtain rfl := eq_of_openFile ho hb
    rw [get?_put_of_openFile ho]
    exact congrArg (some ∘ Node.file) ByteArray.append_empty
  · exact (get?_put_eq_file_iff_of_openFile ho _ hl).2 hb

/-- A path that leads to a file leads to it in a tree with the same files. -/
theorem Spares.look (h : t.Spares t') {p shown : Path} {b : ByteArray}
    (hl : t.look p shown = .ok (some (.file b))) : t'.look p shown = .ok (some (.file b)) := by
  rw [Tree.look] at hl ⊢
  split at hl
  · next l hloc =>
    rw [h.keeps.locate hloc]
    exact congrArg Except.ok (h.files l b (Except.ok.inj hl))
  · split at hl <;> cases hl

end Files.Tree

variable {α β : Type} {w w' : Workspace}

/-- The second workspace is in the same directory, and files have what they had in the
    first one. -/
structure Workspace.Spares (w w' : Workspace) : Prop where
  directory : w'.directory = w.directory
  tree : w.tree.Spares w'.tree

namespace Work

/-- However the step ends, wherever it starts, it spares the files. -/
def Sparing (step : Work α) : Prop := ∀ w : Workspace, w.Spares (step.perform w).2

theorem sparing_pure (a : α) : Sparing (pure a) := fun _ => ⟨rfl, .refl _⟩

theorem sparing_get {next : Workspace → Work β} (h : ∀ w, Sparing (next w)) :
    Sparing (get >>= next) := fun w => h w w

theorem Sparing.bind {step : Work α} {next : α → Work β} (hs : Sparing step)
    (hn : ∀ a, Sparing (next a)) : Sparing (step >>= next) := by
  intro w
  have hw := hs w
  rcases hp : step.perform w with ⟨a | a, w'⟩
  · rw [perform_bind_error hp]
    rwa [hp] at hw
  · rw [perform_bind_ok hp]
    rw [hp] at hw
    have hw' := hn a w'
    exact ⟨hw'.directory.trans hw.directory, hw.tree.trans hw'.tree⟩

end Work

namespace Journal

theorem sparing_change (f : Journal → Journal) : Sparing (change f) := fun _ => ⟨rfl, .refl _⟩

/-- To open a log file spares what is in it. -/
theorem sparing_appendLog (file : Path) : Sparing (appendLog file .empty) := by
  intro w
  rw [appendLog]
  split
  · exact ⟨rfl, .refl _⟩
  · rw [perform_get_bind]
    split
    · next tree ht => exact ⟨rfl, Tree.spares_append ht⟩
    · exact ⟨rfl, .refl _⟩

theorem sparing_withLogFile (handlers : List Handler) : Sparing (withLogFile handlers) := by
  refine sparing_get fun w => ?_
  split
  · refine (sparing_get fun w => sparing_pure _).bind fun p => ?_
    dsimp only
    split
    · exact sparing_pure _
    · exact (sparing_appendLog _).bind fun _ => sparing_pure _
  · exact sparing_pure _

theorem sparing_configure (name : Text) : Sparing (configure name) := by
  refine sparing_get fun w => (sparing_change _).bind fun _ => sparing_get fun w => ?_
  split
  · exact (sparing_withLogFile _).bind fun _ => sparing_change _
  · exact sparing_pure _

/-- To make a logger spares the files. -/
theorem sparing_appear (name : Text) : Sparing (appear name) := by
  refine sparing_get fun w => ?_
  dsimp only
  split
  · exact sparing_pure _
  · exact (sparing_change _).bind fun _ => (sparing_configure _).bind fun _ => sparing_change _

/-- A logger that was made is known. -/
theorem mem_names_of_appear {name : Text} (h : (appear name).perform w = (.ok (), w')) :
    name ∈ w'.journal.names := by
  rw [appear, perform_get_bind] at h
  dsimp only at h
  split at h
  · next hn =>
    cases h
    exact List.contains_iff_mem.1 hn
  · rw [perform_change_bind] at h
    rcases hc : (configure name).perform _ with ⟨f | u, w₂⟩
    · rw [perform_bind_error hc] at h
      cases h
    · rw [perform_bind_ok hc] at h
      cases h
      exact List.mem_append_right _ (List.mem_singleton.2 rfl)

/-- To make a logger twice is to make it once. -/
theorem perform_appear_appear (name : Text) (next : Work β) :
    (do appear name; appear name; next).perform w = (do appear name; next).perform w := by
  rcases hp : (appear name).perform w with ⟨f | u, w'⟩
  · rw [perform_bind_error hp, perform_bind_error hp]
  · rw [perform_bind_ok hp, perform_bind_ok hp,
      perform_bind_ok (perform_appear (mem_names_of_appear hp))]

end Journal

/-! ## Ends of line -/

namespace RuleBook

/-- What is noted on a text depends on its lines only. -/
theorem notes_unifyBreaks (t : Text) : notes t.unifyBreaks = notes t := by
  rw [notes, notes, statementLines, statementLines, Text.lines_unifyBreaks]

end RuleBook

/-- A plan is made in the same way, its stages and notes included. -/
theorem Plan.assemble_unifyBreaks (catalogText t : Text) (fallback : Bool) :
    assemble catalogText t.unifyBreaks fallback = assemble catalogText t fallback := by
  rw [assemble, assemble, RuleBook.notes_unifyBreaks, RuleBook.ofText_unifyBreaks]

namespace Storage

variable {path : Path} {t : Text}

/-- A path that leads to a text leads to it wherever the files are spared. -/
theorem HasText.spared (h : HasText w.directory w.tree path t) (hs : w.Spares w') :
    HasText w'.directory w'.tree path t := by
  obtain ⟨hn, bytes, hl, hd⟩ := h
  exact ⟨hn, bytes, hs.directory ▸ hs.tree.look hl, hd⟩

/-- A file that holds a text is read to the text with its ends of line unified. -/
theorem perform_readText (h : HasText w.directory w.tree path t) (kind : InputKind) :
    (readText kind path).perform w = (.ok t.unifyBreaks, w) := by
  obtain ⟨hn, bytes, hl, hd⟩ := h
  have hbytes : (readBytes path).perform w = (.ok bytes, w) := by
    have hroot : (fromRoot path).perform w = (.ok (path.seenFrom w.directory), w) := rfl
    rw [readBytes, perform_bind_ok hroot]
    dsimp only
    rw [if_neg (Bool.eq_false_iff.1 hn), perform_get_bind, hl]
    rfl
  rw [readText, perform_bind_ok hbytes, hd]
  rfl

/-- What follows the reading of a file goes on with the text that it holds, once the reader
    has appeared. -/
theorem perform_readRuleText_bind (h : HasText w.directory w.tree path t)
    (next : Text → Work β) : (readRuleText path >>= next).perform w =
      (do Journal.appear Speaker.ruleReader; next t.unifyBreaks).perform w := by
  rw [readRuleText]
  -- A reader that cannot appear reads nothing.
  rcases hp : (Journal.appear Speaker.ruleReader).perform w with ⟨f | u, w'⟩
  · rw [perform_bind_error (perform_bind_error hp _), perform_bind_error hp]
  · have hspared : w.Spares w' := by
      have hs := Journal.sparing_appear Speaker.ruleReader w
      rwa [hp] at hs
    have hread : (do Journal.appear Speaker.ruleReader; readText .rules path).perform w =
        (.ok t.unifyBreaks, w') := by
      rw [perform_bind_ok hp]
      exact perform_readText (h.spared hspared) .rules
    rw [perform_bind_ok hread, perform_bind_ok hp]

/-- The text that is read from the file is the one that it holds, with its ends of line
    unified. -/
theorem eq_of_perform_readRuleText (h : HasText w.directory w.tree path t) {text : Text}
    (ht : (readRuleText path).perform w = (.ok text, w')) : text = t.unifyBreaks := by
  have hbehind := perform_readRuleText_bind h pure
  rw [perform_bind_ok ht] at hbehind
  rcases hp : (Journal.appear Speaker.ruleReader).perform w with ⟨f | u, w''⟩
  · rw [perform_bind_error hp] at hbehind
    cases hbehind
  · rw [perform_bind_ok hp] at hbehind
    cases hbehind
    rfl

/-- Parses the text of a rule book, by a reader made for it. -/
def parseRules (t : Text) : Work RuleBook := do
  Journal.takeAll (RuleBook.notes t)
  liftExcept (RuleBook.ofText t)

theorem parseRules_unifyBreaks (t : Text) : parseRules t.unifyBreaks = parseRules t := by
  rw [parseRules, parseRules, RuleBook.notes_unifyBreaks, RuleBook.ofText_unifyBreaks]

/-- A reader that parses has appeared before. -/
theorem perform_appear_parseRules (t : Text) :
    (do Journal.appear Speaker.ruleReader; parseRules t).perform w = (parseRules t).perform w := by
  have hparse : parseRules t = (do
      Journal.appear Speaker.ruleReader
      Journal.takeAll (RuleBook.notesOn (RuleBook.statementLines t))
      liftExcept (RuleBook.ofText t)) := bind_assoc ..
  rw [hparse, Journal.perform_appear_appear]

/-- Where the journal can be kept, a text is parsed to its rule book or its fault. -/
theorem perform_parseRules (h : w.journal.OnScreen ∨ w.Settled) (t : Text) :
    ((parseRules t).perform w).1 = RuleBook.ofText t := by
  rcases h with h | h
  · exact (((Journal.reads_takeAll _).andThen (reads_liftExcept _)) w ⟨rfl, rfl, h⟩).1
  · exact ((Journal.goes_takeAll h RuleBook.plain_of_mem_notes).andThen fun _ hw =>
      goes_liftExcept hw.settled _).1

/-- To read a rule book from a file is to parse the text that the file holds: both have the
    same outcome and leave the same workspace, wherever the journal is kept. What is read
    has the lines of the text, and the same plan is made of it. If the journal can be kept,
    the outcome is that of the text, so a fault is that of one of its lines, unless a number
    has too many digits. -/
theorem read_as_parsed (h : HasText w.directory w.tree path t) :
    (readRules path).perform w = (parseRules t).perform w ∧
    (∀ text w', (readRuleText path).perform w = (.ok text, w') → text.lines = t.lines) ∧
    (∀ (candidates : Text) (fallback : Bool),
      (do Command.assemble candidates (← readRuleText path) fallback).perform w =
        (do
          Journal.appear Speaker.ruleReader
          Command.assemble candidates t fallback).perform w) ∧
    (w.journal.OnScreen ∨ w.Settled →
      ((readRules path).perform w).1 = RuleBook.ofText t ∧
      (t.Countable → ∀ f, ((readRules path).perform w).1 = .error f →
        ∃ n cause, f = .badRule (some (n + 1)) cause ∧ f.category? = some .ruleSyntax ∧
          f.message = s!"line {n + 1}: {cause.message}")) := by
  have hread : (readRules path).perform w = (parseRules t).perform w := by
    show (readRuleText path >>= parseRules).perform w = _
    rw [perform_readRuleText_bind h, parseRules_unifyBreaks, perform_appear_parseRules]
  refine ⟨hread, fun text w' ht => ?_, fun candidates fallback => ?_, fun hw => ?_⟩
  · rw [eq_of_perform_readRuleText h ht, Text.lines_unifyBreaks]
  · rw [perform_readRuleText_bind h, Command.assemble, Plan.assemble_unifyBreaks]
    rfl
  · rw [hread, perform_parseRules hw]
    refine ⟨rfl, fun hc f hf => ?_⟩
    obtain ⟨before, -, -, cause, -, -, -, rfl⟩ := RuleBook.ofText_eq_error_of_countable hc hf
    exact ⟨_, cause, rfl, rfl, RuleBook.message_badRule _ cause⟩

/-- Behind a carriage return, a pair of it with a line feed, and a line separator, the
    fault is in the fourth line. It makes no difference if the log is kept in the file
    itself. -/
theorem read_as_parsed_of_mixed_ends :
    let t : Text := "a=1\r\r\n\u2028b\r".toList
    let path : Path := .ofText "r.conf".toList
    let logged := { Command.deskWith t with journal := { Journal.fresh with file := some path } }
    HasText logged.directory logged.tree path t ∧
      (readRules path).perform logged = (parseRules t).perform logged ∧
      (Command.deskWith t).journal.OnScreen ∧ t.Countable ∧
      ((readRules path).perform (Command.deskWith t)).1 =
        .error (.badRule (some 4) (.noEquals ['b'])) := by
  intro t path logged
  have htext : HasText (Command.deskWith t).directory (Command.deskWith t).tree path t :=
    (Command.ready_deskWith t).rules_held
  have hcount : t.Countable := Text.countable_of_length_le (by decide)
  have hscreen : (Command.deskWith t).journal.OnScreen := Journal.onScreen_fresh
  refine ⟨htext, (read_as_parsed (w := logged) htext).1, hscreen, hcount, ?_⟩
  exact ((read_as_parsed htext).2.2.2 (.inl hscreen)).1

end Storage

end TestGrid
