import TestGrid.Rule.Matching

/-!
# Explanations

An explanation shows for each candidate how each rule fared with it. Here every
rule is tried, also those behind an exclusion that has decided; so a rule that
cannot be tried on some candidate makes the explanation fail.
-/

namespace TestGrid

/-- How a rule fared with a candidate. -/
inductive Verdict where
  /-- The rule does not cover the candidate. -/
  | missed
  /-- The rule covers the candidate. -/
  | wanted
  /-- The rule covers the candidate and excludes it. -/
  | excluded
  deriving DecidableEq, Repr

namespace Verdict

/-- The verdict of a rule which covers a candidate or does not. -/
def of (rule : Rule) (covers : Bool) : Verdict :=
  if covers then if rule.excluded then excluded else wanted else missed

/-- The wording of a verdict. -/
def name : Verdict → String
  | missed => "no match"
  | wanted => "match"
  | excluded => "excluded"

end Verdict

/-- What all rules say about a candidate. -/
structure Decision where
  version : Text
  /-- One verdict for each rule, in order. -/
  verdicts : List Verdict
  deriving DecidableEq, Repr

namespace Decision

/-- Whether the candidate is included: some rule wants it and none excludes
    it. -/
def included (d : Decision) : Bool :=
  d.verdicts.any (· ≠ .missed) && !d.verdicts.any (· = .excluded)

/-- What the rules say about a candidate. -/
def of (rules : List Rule) (version : Text) : Except MatchFault Decision :=
  return ⟨version, ← rules.mapM fun rule => return .of rule (← rule.covers version)⟩

end Decision

namespace Explanation

/-- What the rules say about each candidate. -/
def decisions (rules : List Rule) (candidates : List Text) : Except MatchFault (List Decision) :=
  candidates.mapM (Decision.of rules)

/-- The versions that stand in when no candidate is included, if this is
    wanted. -/
def standIns (fallback : Bool) (rules : List Rule) : Option (List Text) :=
  if fallback then some (Rule.literals rules) else none

end Explanation

end TestGrid
