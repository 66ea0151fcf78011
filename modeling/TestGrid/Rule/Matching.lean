import TestGrid.Rule.Basic
import TestGrid.Rule.Wildcard

/-!
# Matching

A rule is tried on a version of the catalog (`Rule.covers`): literals and
wildcards on the version as it is written, bounds on its numeric part. The
rules of a component together *include* a version (`Rule.includes`) if one of
them covers it and no excluded one does. They are tried in order, and the first
excluded rule that covers the version decides, so that a bound behind it may
stay untried.
-/

namespace TestGrid

open Version

/-- Why a rule cannot be tried on a version. -/
inductive MatchFault where
  /-- The version has no key that a bound could be compared with. -/
  | version (cause : KeyFault)
  /-- The rule is of a form that is not known. -/
  | unknownRule (text : Text)
  deriving DecidableEq, Repr

namespace Rule

/-- Whether two bounds both admit a version; the second is tried only if the
    first admits it. -/
def bothAdmit (b c : Bound) (version : Text) : Except KeyFault Bool := do
  if ← b.admits version then c.admits version else return false

/-- Whether a rule, excluded or not, covers a version. -/
def covers (rule : Rule) (version : Text) : Except MatchFault Bool :=
  match rule with
  | literal v _ => .ok (v = version)
  | wildcard g _ => .ok (Wildcard.covers g version)
  | range b => (b.admits (numericPart version)).mapError .version
  | interval b c => (bothAdmit b c (numericPart version)).mapError .version
  | unknown t => .error (.unknownRule t)

/-- Whether rules include a version, given whether the rules before them do. -/
def includesFrom (version : Text) : Bool → List Rule → Except MatchFault Bool
  | included, [] => .ok included
  | included, rule :: rules => do
    if ← rule.covers version then
      -- An exclusion decides at once; the rules behind it stay untried.
      if rule.excluded then return false else includesFrom version true rules
    else includesFrom version included rules

/-- Whether the rules of a component include a version: some rule covers it,
    and no excluded one does. -/
def includes (rules : List Rule) (version : Text) : Except MatchFault Bool :=
  includesFrom version false rules

end Rule

end TestGrid
