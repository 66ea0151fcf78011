import TestGrid.Files.Tree
import TestGrid.Rule.Matching
import TestGrid.Rule.Syntax
import TestGrid.Setting

/-!
# Faults

All that can go wrong, as one type of causes. A fault has a message. A fault of
the program's own kinds also has a *category*; categories form a tree under
`Category.general`, and each says with which status a run ends. The other
faults, such as a log file that cannot be opened or a numeral that is too long,
have no category: no command answers for them.

* `Fault.message`: the wording;
* `Fault.category?`: the category, if there is one;
* `Category.exitStatus`: the status with which a run ends.
-/

namespace TestGrid

open Version Files

/-- The program's own kinds of faults. -/
inductive Category where
  | general
  | input
  | ruleSyntax
  | version
  | writing
  | matching
  | unmatched
  | emptyGrid
  deriving DecidableEq, Repr

namespace Category

/-- The categories above, the nearest one first. -/
def above : Category → List Category
  | general => []
  | input | version | writing | matching => [general]
  | ruleSyntax => [input, general]
  | unmatched | emptyGrid => [matching, general]

/-- The status of a run that ends with a fault of the category: 2 where nothing
    has matched, else 1. -/
def exitStatus : Category → Nat
  | matching | unmatched | emptyGrid => 2
  | _ => 1

end Category

/-- The kinds of files that are read. -/
inductive InputKind where
  | candidates
  | rules
  deriving DecidableEq, Repr

/-- What a kind of file is called in messages. -/
def InputKind.title : InputKind → String
  | candidates => "candidate versions"
  | rules => "case versions"

/-- What can go wrong. -/
inductive Fault where
  /-- No relation has this symbol. -/
  | noSuchRelation (symbol : Text)
  /-- Equality bounds no range. -/
  | equalityRange
  /-- A version has no key. -/
  | version (cause : KeyFault)
  /-- A rule is of a form that is not known. -/
  | unknownRule (text : Text)
  /-- A text is no rule, or a line of a rule book states none. -/
  | badRule (line : Option Nat) (cause : SyntaxFault)
  /-- An entry of a catalog names no component. -/
  | badEntry (entry : Text)
  /-- Components with rules of which no version is selected. -/
  | unmatched (rules : List (Text × List Rule))
  /-- There is no lineup. -/
  | emptyGrid
  /-- A setting is missing. -/
  | missing (setting : Setting)
  /-- The component to explain has no rules. -/
  | noRules (component : Text)
  /-- There is no file at a path. -/
  | notAFile (path : Path)
  /-- A file holds no text. -/
  | unreadable (kind : InputKind) (path : Path) (cause : Text.DecodeFault)
  /-- A directory for the grid cannot be made. -/
  | noDirectory (path : Path) (cause : SystemFault)
  /-- The grid cannot be written. -/
  | notWritten (cause : SystemFault)
  /-- It is not said where the grid goes. -/
  | noDestination
  /-- A log file cannot be opened, or an input cannot be looked up. -/
  | refused (cause : SystemFault)
  /-- A path to write to has a null character. -/
  | nullCharacter
  /-- A fault of a category, stated in words. -/
  | stated (category : Category) (message : Text)
  /-- A fault from outside, stated in words. -/
  | raised (message : Text)
  deriving DecidableEq

namespace Fault

/-- The fault of a text that is no rule. A numeral that is too long is the same
    fault wherever it stands. -/
def ofSyntax (line : Option Nat) : SyntaxFault → Fault
  | .tooLong digits => version (.tooLong digits)
  | cause => badRule line cause

/-- The fault of a rule that cannot be tried. -/
def ofMatch : MatchFault → Fault
  | .version cause => version cause
  | .unknownRule text => unknownRule text

/-- A message with the number of the line it is about; 0 is no line. -/
def located (line : Int) (message : String) : String :=
  if line = 0 then message else s!"line {line}: {message}"

/-- A component with its rules, as a message shows them. -/
def shownRules (component : Text) (rules : List Rule) : Text :=
  component ++ ", rules: [".toList ++ Text.joined [',', ' '] (rules.map Rule.toText) ++ [']']

/-- The wording of a fault. -/
def message : Fault → String
  | noSuchRelation symbol => s!"Comparison operator is invalid: {symbol}"
  | equalityRange => s!"Comparison operator is invalid for a range: {Relation.equal.symbol}"
  | version cause => cause.message
  | unknownRule text => s!"Unsupported match rule: {text.quoted}"
  | badRule line cause => located (line.getD 0) cause.message
  | badEntry entry => s!"Invalid candidate versions entry: '{entry}'"
  | unmatched rules =>
    let shown := Text.joined [';', ' '] (rules.map fun (c, rs) => shownRules c rs)
    s!"Component not match: {shown}"
  | emptyGrid => "Version matrix is empty"
  | missing setting => s!"Missing {setting.title}: '{setting.variableName}'"
  | noRules component => s!"No match rules for component: {component}"
  | notAFile path => s!"File not exists or isn't a file: {path}"
  | unreadable kind path cause => s!"Cannot read {kind.title} file {path}: {cause.message}"
  | noDirectory path cause => s!"Create output directory failed: {path}: {cause.message}"
  | notWritten cause => s!"Write version matrix failed: {cause.message}"
  | noDestination => "No output file specified"
  | refused cause => cause.message
  | nullCharacter => "embedded null byte"
  | stated _ message => toString message
  | raised message => toString message

/-- The category of a fault, if it is one of the program's own kinds. -/
def category? : Fault → Option Category
  | version (.notNumeric ..) => some .version
  | badRule .. => some .ruleSyntax
  | badEntry _ | missing _ | noRules _ | notAFile _ | unreadable .. => some .input
  | unmatched _ => some .unmatched
  | emptyGrid => some .emptyGrid
  | noDirectory .. | notWritten _ => some .writing
  | stated category _ => some category
  | noSuchRelation _ | equalityRange | version (.tooLong _) | unknownRule _ | noDestination |
    refused _ | nullCharacter | raised _ => none

/-- The status of a run that ends with the fault, if a command answers for it. -/
def exitStatus? (f : Fault) : Option Nat := f.category?.map Category.exitStatus

end Fault

end TestGrid
