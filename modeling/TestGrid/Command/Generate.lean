import TestGrid.Meter
import TestGrid.Plan
import TestGrid.Settings

/-!
# Generating a grid

The run that makes a plan of a catalog and a rule book and stores its grid. It
ends with the status 0 and a summary, or with the status of the fault that came
in its way, which is told to the journal behind a mark and shown on the console
for errors. A fault of no category, such as a log file that cannot be opened,
is not answered for.
-/

namespace TestGrid.Command

open Files

/-- How a grid is to be generated. -/
structure GenerateOptions where
  settings : Settings
  /-- Whether the lightest records are kept too. -/
  verbose : Bool := false
  logFile : Option Path := none
  /-- Whether the times and the memory of the stages are shown. -/
  performance : Bool := false
  deriving DecidableEq, Repr

/-- Ends a run with a fault: the status with which it ends, if the fault is
    answered for. -/
def answerFor (f : Fault) : Work Nat :=
  match f.exitStatus? with
  | none => throw f
  | some status => do
    Journal.tellFatal Speaker.commandLine f.message
    Work.showError [Report.error f.message.toList none]
    return status

/-- Runs a step, and ends the run if it fails; else the run goes on with the
    result. -/
def orAnswerFor {α : Type} (step : Work α) (next : α → Work Nat) : Work Nat := fun w =>
  match step w with
  | (.ok a, w) => next a w
  | (.error f, w) => answerFor f w

/-- Tells the journal a setting. -/
def tellSetting (s : Setting) (value : Text) : Work Unit :=
  Journal.tell .info Speaker.commandLine s!"{s.variableName}: {value}"

/-- Makes the plan of two texts and takes its notes to the journal. -/
def assemble (catalogText ruleText : Text) (fallback : Bool) : Work (Plan × List Stage) := do
  let (result, trace) := (Plan.assemble catalogText ruleText fallback).result
  Journal.takeAll trace.notes
  return (← liftExcept result, trace.stages)

/-- Makes the plan that the settings ask for and stores its grid; the stages are
    returned too. -/
def store (s : Settings) : Work (Plan × Path × List Stage) := do
  let (candidates, rules, output) ← s.check
  tellSetting .candidates candidates
  tellSetting .rules rules.toText
  tellSetting .output output.toText
  let ruleText ← Storage.readRuleText rules
  let (plan, stages) ← assemble candidates ruleText s.fallback
  let _ ← Storage.save plan.grid (some output) none
  return (plan, output, stages ++ [.store])

/-- The meter of some stages, all of which take what the gauge reads. -/
def meterOf (gauge : Gauge) (stages : List Stage) : Meter :=
  stages.foldl (fun m s => m.takeDown s.name.toList gauge.seconds gauge.megabytes)
    ⟨0, true, false, []⟩

/-- Generates a grid; the status with which the run ends. -/
def generate (o : GenerateOptions) : Work Nat := do
  Journal.setUp .info o.logFile o.verbose
  orAnswerFor (store o.settings) fun (plan, output, stages) => do
    Work.show (Report.summary plan.selection.entries plan.grid.length (some output))
    if o.performance then Work.show (meterOf (← get).gauge stages).summary
    return 0

end TestGrid.Command
