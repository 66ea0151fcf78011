import TestGrid.Catalog
import TestGrid.RuleBook

/-!
# Selections

A selection gives components the versions to test with: of the candidates of
the catalog those that the rules of the component include. If no candidate is
included, the literals of the rules may stand in for them (the *fallback*). A
component of the catalog without rules is left out; a component of the rule
book for which nothing is selected makes the selection fail, and all such
components are named.
-/

namespace TestGrid

/-- Components with the versions selected for them. -/
abbrev Selection := Roster Text (List Text)

namespace Selection

/-- The candidates that the rules include. -/
def included (rules : List Rule) : List Text → Except MatchFault (List Text)
  | [] => .ok []
  | v :: vs => do
    let keep ← Rule.includes rules v
    let rest ← included rules vs
    return if keep then v :: rest else rest

/-- The versions selected for one component. -/
def choose (fallback : Bool) (rules : List Rule) (candidates : List Text) :
    Except MatchFault (List Text) := do
  let included ← included rules candidates
  return if included.isEmpty && fallback then Rule.literals rules else included

/-- The components of a catalog for which something is selected, with the
    versions. -/
def chosen (fallback : Bool) (book : RuleBook) :
    List (Text × List Text) → Except MatchFault (List (Text × List Text))
  | [] => .ok []
  | (component, candidates) :: entries =>
    let rules := book.rulesOf component
    if rules.isEmpty then chosen fallback book entries
    else do
      let versions ← choose fallback rules candidates
      let rest ← chosen fallback book entries
      return if versions.isEmpty then rest else (component, versions) :: rest

/-- The components of a rule book that a selection leaves out, with their
    rules. -/
def unmatched (selection : Selection) (book : RuleBook) : List (Text × List Rule) :=
  book.entries.filter fun (component, _) => !selection.contains component

/-- The selection from a catalog by a rule book. -/
def ofCatalog (fallback : Bool) (catalog : Catalog) (book : RuleBook) : Except Fault Selection := do
  let selection := Roster.ofList (← (chosen fallback book catalog.entries).mapError .ofMatch)
  let left := unmatched selection book
  if left.isEmpty then return selection else throw (.unmatched left)

/-- What is noted while the versions of one component are selected. -/
def choiceNotes (fallback : Bool) (rules : List Rule) (candidates : List Text) : List Note :=
  match included rules candidates with
  | .ok [] =>
    let literals := Rule.literals rules
    let shown := Text.quotedList literals
    if fallback && !literals.isEmpty then
      [.record .debug Speaker.matcher
        s!"No candidate matched, using case specific versions: {shown}"]
    else []
  | _ => []

/-- What is noted while versions are selected for the components of a catalog,
    up to the first fault. -/
def notes (fallback : Bool) (book : RuleBook) : List (Text × List Text) → List Note
  | [] => []
  | (component, candidates) :: entries =>
    let rules := book.rulesOf component
    if rules.isEmpty then
      .record .debug Speaker.matcher s!"Skipping {component}: no match rules" ::
        notes fallback book entries
    else
      choiceNotes fallback rules candidates ++
        match choose fallback rules candidates with
        | .error _ => []
        | .ok versions =>
          let shown := Text.quotedList versions
          .record .debug Speaker.matcher
              s!"{component}: {versions.length} of {candidates.length} candidates matched {shown}"
            :: notes fallback book entries

end Selection

end TestGrid
