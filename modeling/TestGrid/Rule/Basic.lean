import TestGrid.Version.Relation

/-!
# Rules

A rule says which versions of a component are wanted. It is

* a *literal*, the exact version, or a *wildcard*, a version with stars; both
  may be *excluded*, and then say which versions are not wanted;
* a *range* with one bound or an *interval* with two, both of which must hold.

A bound knows its key from the start (`Bound.key_eq`), so a rule with a bound
that is no version cannot be built. `Rule.toText` writes a rule in the form in
which it is read.
-/

namespace TestGrid

open Version

/-- The ways to limit a range by a version. -/
inductive Limit where
  | above
  | atLeast
  | below
  | atMost
  deriving DecidableEq, Repr

namespace Limit

/-- The relation in which the versions of a range stand to its bound. -/
def relation : Limit → Relation
  | above => .after
  | atLeast => .notBefore
  | below => .before
  | atMost => .notAfter

/-- The limit which a relation sets; equality sets none. -/
def ofRelation? : Relation → Option Limit
  | .after => some above
  | .notBefore => some atLeast
  | .before => some below
  | .notAfter => some atMost
  | .equal => none

/-- The symbol of a limit. -/
def symbol (l : Limit) : Text := l.relation.symbol

end Limit

/-- A bound of a range. -/
structure Bound where
  limit : Limit
  /-- The version as it is written. -/
  version : Text
  /-- The key of the version. -/
  key : Key
  key_eq : Key.ofText version = .ok key
  deriving DecidableEq

namespace Bound

/-- The bound that a version sets. A qualifier is no part of such a version. -/
def of (limit : Limit) (version : Text) : Except KeyFault Bound :=
  match h : Key.ofText version with
  | .ok key => .ok ⟨limit, version, key, h⟩
  | .error f => .error f

/-- A bound in the form in which it is read. -/
def toText (b : Bound) : Text := b.limit.symbol ++ b.version

/-- Whether a version without a qualifier keeps to the bound. -/
def admits (b : Bound) (version : Text) : Except KeyFault Bool :=
  return b.limit.relation.holds (← Key.ofText version) b.key

end Bound

/-- A rule on the versions of a component. -/
inductive Rule where
  /-- The version itself. -/
  | literal (version : Text) (excluded : Bool)
  /-- The versions of a shape in which a star stands for anything. -/
  | wildcard (glob : Text) (excluded : Bool)
  /-- The versions that keep to a bound. -/
  | range (bound : Bound)
  /-- The versions that keep to two bounds. -/
  | interval (first second : Bound)
  /-- A rule of a form that is not known: only its text is, and it can be
      neither met nor missed. -/
  | unknown (text : Text)
  deriving DecidableEq

namespace Rule

/-- Whether the rule says which versions are not wanted. -/
def excluded : Rule → Bool
  | literal _ e => e
  | wildcard _ e => e
  | _ => false

/-- The mark of an exclusion in front of a text. -/
def marked (excluded : Bool) (t : Text) : Text := if excluded then '!' :: t else t

/-- A rule in the form in which it is read. -/
def toText : Rule → Text
  | literal v e => marked e v
  | wildcard g e => marked e g
  | range b => b.toText
  | interval b c => b.toText ++ ' ' :: c.toText
  | unknown t => t

/-- The version of a rule that includes exactly one. -/
def literal? : Rule → Option Text
  | literal v false => some v
  | _ => none

/-- The versions that the rules include literally, in order. -/
def literals (rules : List Rule) : List Text := rules.filterMap literal?

end Rule

end TestGrid
