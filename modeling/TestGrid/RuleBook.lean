import TestGrid.Fault
import TestGrid.Journal.Note
import TestGrid.Text.Lines

/-!
# Rule books

A rule book gives components their rules, in the order in which its text first
names them. Each line of the text states the rules of one component; blank
lines and lines that start with a hash say nothing. A component stated again
keeps its place and takes the new rules. The first line that states nothing
properly makes the whole text faulty.

* `RuleBook.ofText` reads a rule book;
* `RuleBook.toText` writes one, with one line for each component.
-/

namespace TestGrid

/-- Components with their rules. -/
abbrev RuleBook := Roster Text (List Rule)

namespace RuleBook

/-- The lines of a text that should state something, trimmed, each with its
    number. -/
def statementLines (text : Text) : List (Nat × Text) :=
  (text.lines.zipIdx 1).filterMap fun (line, n) =>
    let line := line.trim
    if line.isEmpty || line.head? = some '#' then none else some (n, line)

/-- Enters what a line states. -/
def enter (book : RuleBook) (n : Nat) (line : Text) : Except Fault RuleBook :=
  match Statement.ofLine line with
  | .ok s => .ok (book.insert s.component s.rules)
  | .error cause => .error (.ofSyntax (some n) cause)

/-- The rule book of a text. -/
def ofText (text : Text) : Except Fault RuleBook :=
  (statementLines text).foldlM (fun book (n, line) => book.enter n line) ∅

/-- The rules of a component; one that is not named has none. -/
def rulesOf (book : RuleBook) (component : Text) : List Rule := (book.get? component).getD []

/-- A line that states the rules of a component. -/
def lineText (component : Text) (rules : List Rule) : Text :=
  component ++ '=' :: Text.joined [',', ' '] (rules.map Rule.toText)

/-- A rule book as it is written. -/
def toText (book : RuleBook) : Text :=
  Text.joined ['\n'] (book.entries.map fun (component, rules) => lineText component rules)

/-- What is noted on lines: the rules of each, up to the first fault. -/
def notesOn : List (Nat × Text) → List Note
  | [] => []
  | (_, line) :: lines =>
    match Statement.ofLine line with
    | .ok s =>
      let shown := Text.quotedList (s.rules.map Rule.toText)
      .record .debug Speaker.ruleReader s!"Rules for {s.component}: {shown}" :: notesOn lines
    | .error (.tooLong _) => []
    | .error cause =>
      [.record .error Speaker.ruleReader s!"Parse case versions rules failed: {cause.message}"]

/-- What is noted while the rule book of a text is read. -/
def notes (text : Text) : List Note := .appear Speaker.ruleReader :: notesOn (statementLines text)

end RuleBook

end TestGrid
