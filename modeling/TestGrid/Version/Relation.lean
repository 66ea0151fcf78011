import TestGrid.Version.Key

/-!
# Relations between versions

Two versions stand in one of five relations, each written with a symbol. A
relation holds of versions when it holds of their keys, so `2.7`, `2.7.0` and
`2.7-beta` are equal as far as relations go.
-/

namespace TestGrid.Version

/-- A relation in which a candidate may stand to a bound. -/
inductive Relation where
  /-- After the bound. -/
  | after
  /-- After the bound or equal to it. -/
  | notBefore
  /-- Before the bound. -/
  | before
  /-- Before the bound or equal to it. -/
  | notAfter
  /-- Equal to the bound. -/
  | equal
  deriving DecidableEq, Repr

namespace Relation

/-- All relations. -/
def all : List Relation := [after, notBefore, before, notAfter, equal]

/-- The symbol of a relation. -/
def symbol : Relation → Text
  | after => ['>']
  | notBefore => ['>', '=']
  | before => ['<']
  | notAfter => ['<', '=']
  | equal => ['=', '=']

/-- The relation of a symbol, which may have blanks around it. -/
def ofSymbol? (t : Text) : Option Relation := all.find? (·.symbol = t.trim)

/-- Whether a candidate stands in the relation to a bound. -/
def holds (r : Relation) (candidate bound : Key) : Bool :=
  match r with
  | after => candidate.order bound = .gt
  | notBefore => candidate.order bound = .gt || candidate = bound
  | before => candidate.order bound = .lt
  | notAfter => candidate.order bound = .lt || candidate = bound
  | equal => candidate = bound

end Relation

/-- A side of a comparison: a version as it is written, qualifier included, or
    a key. -/
inductive Operand where
  | version (v : Text)
  | key (k : Key)
  deriving DecidableEq, Repr

/-- The key by which an operand is compared. -/
def Operand.toKey : Operand → Except KeyFault Key
  | version v => Key.ofText (numericPart v)
  | key k => .ok k

/-- Whether a candidate stands in the relation to a bound; of two versions
    without a key, the candidate is at fault. -/
def Relation.compare (r : Relation) (candidate bound : Operand) : Except KeyFault Bool :=
  return r.holds (← candidate.toKey) (← bound.toKey)

end TestGrid.Version
