import TestGrid.Text.Basic

/-!
# Settings

What a run is told: which candidates there are, where the rules are, where the
grid goes, and whether the literal versions of the rules stand in for a
component of which no candidate is included. Each setting has an environment
variable, which counts where the command line is silent.
-/

namespace TestGrid

/-- A setting of a run. -/
inductive Setting where
  | candidates
  | rules
  | output
  | fallback
  deriving DecidableEq, Repr

namespace Setting

/-- All settings. -/
def all : List Setting := [candidates, rules, output, fallback]

/-- The environment variable of a setting. -/
def variableName : Setting → String
  | candidates => "CANDIDATE_VERSIONS"
  | rules => "CASE_VERSIONS_FILE"
  | output => "OUTPUT_FILE"
  | fallback => "INCLUDE_CASE_SPECIFIC_VERSION"

/-- What a setting is called in messages. -/
def title : Setting → String
  | candidates => "candidate versions"
  | rules => "case versions file"
  | output => "output file"
  | fallback => "case specific versions"

end Setting

end TestGrid
