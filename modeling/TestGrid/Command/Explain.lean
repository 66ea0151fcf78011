import TestGrid.Command.Generate

/-!
# Explaining a component

The run that shows how the candidates of one component fare against its rules.
It ends with the status 0 if some version is selected for the component, also
when the literals of the rules stand in, and with 2 if none is.
-/

namespace TestGrid.Command

open Files

/-- What is to be explained. -/
structure ExplainOptions where
  component : Text
  candidates : Option Text
  rules : Option Path
  fallback : Bool := true
  deriving DecidableEq, Repr

/-- The rules and the candidates of the component. -/
def inputs (o : ExplainOptions) : Work (List Rule × List Text) := do
  match o.candidates with
  | none => throw (.missing .candidates)
  | some candidates =>
    if Settings.saysNothing candidates then throw (.missing .candidates)
    match o.rules with
    | none => throw (.missing .rules)
    | some path =>
      let catalog ← liftExcept (Catalog.ofText candidates)
      let book ← Storage.readRules path
      let rules := book.rulesOf o.component
      if rules.isEmpty then throw (.noRules o.component)
      match catalog.get? o.component with
      | none => throw (.unmatched [(o.component, rules)])
      | some versions => return (rules, versions)

/-- Explains a component; the status with which the run ends. -/
def explain (o : ExplainOptions) : Work Nat :=
  orAnswerFor (inputs o) fun (rules, versions) => do
    Journal.appear Speaker.matcher
    let explanation := Explanation.decisions rules versions
    orAnswerFor (liftExcept (explanation.mapError Fault.ofMatch)) fun decisions => do
      Work.show (Report.explanation o.component rules decisions
        (Explanation.standIns o.fallback rules))
      -- The status depends on what would be selected, stand-ins included.
      Journal.takeAll (Selection.choiceNotes o.fallback rules versions)
      let chosen ← liftExcept ((Selection.choose o.fallback rules versions).mapError Fault.ofMatch)
      return if chosen.isEmpty then Category.exitStatus .unmatched else 0

end TestGrid.Command
