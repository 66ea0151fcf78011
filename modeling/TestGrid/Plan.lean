import TestGrid.Grid

/-!
# Plans

A plan is all that follows from a catalog and a rule book: what they say, the
selection and the grid. It is made in stages, and leaves a *trace*: the stages
that have ended, also the one that failed, and the notes.

* `Plan.assemble`: the plan of two texts.
-/

namespace TestGrid

/-- A stage of making a plan and storing its grid. -/
inductive Stage where
  | readCatalog
  | readRules
  | select
  | spread
  | store
  deriving DecidableEq, Repr

/-- The name of a stage. -/
def Stage.name : Stage → String
  | readCatalog => "parse_candidates"
  | readRules => "parse_rules"
  | select => "match"
  | spread => "expand"
  | store => "write"

/-- What a computation leaves behind besides its result. -/
structure Trace where
  /-- The stages that have ended, in order. -/
  stages : List Stage := []
  /-- The notes, in order. -/
  notes : List Note := []
  deriving DecidableEq, Repr

/-- A computation that may fail and leaves a trace in either case. -/
abbrev Traced := ExceptT Fault (StateM Trace)

namespace Traced

/-- Leaves notes. -/
def note (notes : List Note) : Traced Unit :=
  modify fun t => { t with notes := t.notes ++ notes }

/-- Runs a computation and leaves something at its end, whether it failed or
    not. -/
def andFinally {α : Type} (body : Traced α) (last : Trace → Trace) : Traced α := fun t =>
  let (result, t) := body t
  (result, last t)

/-- Runs a computation as a stage. -/
def during {α : Type} (stage : Stage) (body : Traced α) : Traced α :=
  body.andFinally fun t => { t with stages := t.stages ++ [stage] }

/-- Runs a computation and notes the time that it took. -/
def timed {α : Type} (activity : String) (body : Traced α) : Traced α :=
  body.andFinally fun t =>
    { t with notes := t.notes ++ [.appear Speaker.clock, .timing activity] }

/-- The result and the trace of a computation. -/
def result {α : Type} (body : Traced α) : Except Fault α × Trace := body.run.run {}

end Traced

/-- What follows from a catalog and a rule book. -/
structure Plan where
  catalog : Catalog
  rules : RuleBook
  selection : Selection
  grid : Grid
  deriving DecidableEq

namespace Plan

open Traced

/-- A selection as a note shows it. -/
def selectionNote (selection : Selection) : Note :=
  .record .debug Speaker.pipeline s!"Matched versions: {Text.quotedTable selection.entries}"

/-- The plan of the texts of a catalog and a rule book. -/
def assemble (catalogText ruleText : Text) (fallback : Bool) : Traced Plan :=
  timed "build_matrix" do
    let catalog ← during .readCatalog (liftExcept (Catalog.ofText catalogText))
    let rules ← during .readRules do
      note (RuleBook.notes ruleText)
      liftExcept (RuleBook.ofText ruleText)
    note [.appear Speaker.matcher]
    let selection ← during .select do
      note (Selection.notes fallback rules catalog.entries)
      liftExcept (Selection.ofCatalog fallback catalog rules)
    let grid ← during .spread (liftExcept (Grid.ofSelection selection))
    note [selectionNote selection]
    return { catalog, rules, selection, grid }

end Plan

end TestGrid
