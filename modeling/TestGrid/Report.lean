import TestGrid.Display
import TestGrid.Explanation
import TestGrid.Files.Path

/-!
# Reports

The drawings by which runs report: the selection with a summary, the
explanation of a component, errors, information, and the grammar of rules.
-/

namespace TestGrid.Report

/-- A literal text of the program. -/
def words (s : String) : Text := s.toList

/-- A panel with an error and, if there are any, details. -/
def error (message : Text) (details : Option Text) : Drawing :=
  let more := match details with
    | some (c :: r) => '\n' :: '\n' :: c :: r
    | _ => []
  .panel (.shown (words "Error: " ++ message ++ more) "") none "red"

/-- A panel with information. -/
def info (message : Text) (title : Option Text) : Drawing := .panel (.shown message "") title "blue"

/-- The table of a selection. -/
def selection (rows : List (Text × List Text)) : Drawing :=
  .table (words "Matched Versions")
    [{ header := words "Component", style := "cyan", noWrap := true },
      { header := words "Versions", style := "green" },
      { header := words "Count", style := "blue", justify := .right }]
    (rows.map fun (component, versions) =>
      [.marked component, .marked (Text.joined [',', ' '] versions),
        .marked (Text.ofNat versions.length)])

/-- The table of a selection and a panel that tells how many lineups there are
    and where they have been written. -/
def summary (rows : List (Text × List Text)) (lineups : Int) (output : Option Files.Path) :
    List Drawing :=
  let destination := match output with
    | some path => s!"\nOutput: {path}"
    | none => ""
  let content := s!"Components: {rows.length}\nVersion profiles: {lineups}{destination}"
  [selection rows,
    .panel (.shown (words content) "") (some (words "Version matrix generated")) "green"]

/-- The style of a verdict. -/
def verdictStyle : Verdict → String
  | .wanted => "green"
  | .excluded => "red bold"
  | .missed => "dim"

/-- The row of a decision. -/
def decisionRow (d : Decision) : List Cell :=
  .marked d.version :: d.verdicts.map (fun v => .shown (words v.name) (verdictStyle v)) ++
    [if d.included then .shown (words "included") "green" else .shown (words "dropped") "red"]

/-- The table of an explanation: a column for each rule, a row for each
    candidate. -/
def decisions (component : Text) (rules : List Rule) (ds : List Decision) : Drawing :=
  .table (words "Rule evaluation for " ++ component)
    ({ header := words "Candidate", style := "cyan", noWrap := true } ::
      rules.map (fun rule => { header := rule.toText, justify := .center }) ++
      [{ header := words "Result", justify := .center }])
    (ds.map decisionRow)

/-- The explanation of a component: the table, and if no candidate is included
    what becomes of it. -/
def explanation (component : Text) (rules : List Rule) (ds : List Decision)
    (standIns : Option (List Text)) : List Drawing :=
  let ending :=
    if ds.any Decision.included then []
    else match standIns with
      | some (v :: vs) =>
        let used := Text.joined [',', ' '] (v :: vs)
        [info (words "No candidate matched; case specific versions used: " ++ used) none]
      | _ => [error (words "Component not match: " ++ component) none]
  decisions component rules ds :: ending

/-- The grammar of rules and the exit statuses. -/
def grammar : List Drawing :=
  .panel (.marked (words ("[bold blue]VersionMatrix[/bold blue]\n" ++
      "Expands per-component version match rules into a test version matrix")))
      (some (words "Information")) "none" ::
    [ "\n[bold]Rule file lines:[/bold] component=pattern[,pattern...]",
      "  2.7.7      exact version (raw string)",
      "  2.7*       wildcard",
      "  !2.7.8*    exclusion, wins over any inclusion",
      "  >=3.0      range bound on the qualifier-free version",
      "  >2.7 <3.0  interval, both bounds must hold",
      "\n[bold]Exit statuses:[/bold] 0 success, 1 failure, 2 nothing matched" ].map
      fun s => .line (words s)

end TestGrid.Report
