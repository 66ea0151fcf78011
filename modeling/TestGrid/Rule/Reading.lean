import TestGrid.Fault

/-!
# Reading rules one at a time

Relations, bounds and rules read from texts of their own, outside a rule book.
A fault then has no line.
-/

namespace TestGrid

open Version

/-- The relation of a symbol. -/
def Version.Relation.ofSymbol (symbol : Text) : Except Fault Relation :=
  match Relation.ofSymbol? symbol with
  | some r => .ok r
  | none => .error (.noSuchRelation symbol)

/-- The bound of a symbol and a version. -/
def Bound.ofSymbol (symbol version : Text) : Except Fault Bound := do
  match Limit.ofRelation? (← Relation.ofSymbol symbol) with
  | some limit => (Bound.of limit version).mapError .version
  | none => throw .equalityRange

namespace Rule

/-- The rule of a pattern. -/
def read (pattern : Text) : Except Fault Rule := (ofPattern pattern).mapError (.ofSyntax none)

/-- The rule of a range. -/
def readRange (pattern : Text) : Except Fault Rule := (ofRange pattern).mapError (.ofSyntax none)

/-- Whether a rule covers a version. -/
def tryOn (rule : Rule) (version : Text) : Except Fault Bool :=
  (rule.covers version).mapError .ofMatch

end Rule

end TestGrid
