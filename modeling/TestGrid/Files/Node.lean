import TestGrid.Roster
import TestGrid.Text.Basic

/-!
# Nodes

A node is a file with its content, or a directory with its entries by name. A
*location* is the list of names that leads from a node to one below it.

* `Node.get?` looks up what stands at a location;
* `Node.put` puts a node there, below directories that are made as needed; it
  is seen there (`get?_put_self`), and what stands apart from it stays as it is
  (`get?_put_of_apart`);
* `Node.nodesAt` lists a node and everything below it.
-/

namespace TestGrid.Files

/-- A file, or a directory. -/
inductive Node where
  | file (content : ByteArray)
  | directory (entries : List (Text × Node))

/-- The names that lead from a node to one below it. -/
abbrev Location := List Text

namespace Node

/-- Two files are the same if their bytes are. -/
theorem file_inj {a b : ByteArray} : file a = file b ↔ a.data.toList = b.data.toList := by
  constructor
  · rintro ⟨⟩
    rfl
  · intro h
    exact congrArg file (ByteArray.ext (Array.toList_inj.1 h))

mutual

/-- Decides whether two nodes are the same. -/
def decideEq : (m n : Node) → Decidable (m = n)
  | file _, file _ => decidable_of_iff _ file_inj.symm
  | directory es, directory fs =>
    match decideEqEntries es fs with
    | isTrue h => isTrue (congrArg directory h)
    | isFalse h => isFalse fun e => h (directory.inj e)
  | file _, directory _ => isFalse Node.noConfusion
  | directory _, file _ => isFalse Node.noConfusion

/-- Decides whether two directories have the same entries. -/
def decideEqEntries : (es fs : List (Text × Node)) → Decidable (es = fs)
  | [], [] => isTrue rfl
  | (a, m) :: es, (b, n) :: fs =>
    match decEq a b, decideEq m n, decideEqEntries es fs with
    | isTrue h, isTrue h', isTrue h'' => isTrue (by rw [h, h', h''])
    | isFalse h, _, _ => isFalse fun e => h (Prod.mk.inj (List.cons.inj e).1).1
    | _, isFalse h, _ => isFalse fun e => h (Prod.mk.inj (List.cons.inj e).1).2
    | _, _, isFalse h => isFalse fun e => h (List.cons.inj e).2
  | [], _ :: _ => isFalse (List.cons_ne_nil _ _).symm
  | _ :: _, [] => isFalse (List.cons_ne_nil _ _)

end

instance : DecidableEq Node := decideEq

/-- Whether a node is a directory. -/
def isDirectory : Node → Bool
  | file _ => false
  | directory _ => true

/-- The entries of a directory; a file has none. -/
def entries : Node → List (Text × Node)
  | file _ => []
  | directory es => es

/-- Entries with a node for a name: in the place of the one it has, else at the
    end. -/
def enter (name : Text) (n : Node) (es : List (Text × Node)) : List (Text × Node) :=
  if name ∈ es.map Prod.fst then Roster.replaceIn name n es else es ++ [(name, n)]

/-- What stands at a location below a node. -/
def get? : Node → Location → Option Node
  | m, [] => some m
  | m, name :: l =>
    match Roster.valueIn name m.entries with
    | some n => n.get? l
    | none => none

/-- A node with another one at a location below it. On the way there, what is no
    directory becomes one. -/
def put (n : Node) : Node → Location → Node
  | _, [] => n
  | m, name :: l =>
    let next := (Roster.valueIn name m.entries).getD (directory [])
    directory (enter name (put n next l) m.entries)

mutual

/-- A node at a location, and all nodes below it, a directory in front of its
    entries. -/
def nodesAt (l : Location) : Node → List (Location × Node)
  | file b => [(l, file b)]
  | directory es => (l, directory es) :: nodesOf l es

/-- The nodes of the entries of a directory at a location, and all below
    them. -/
def nodesOf (l : Location) : List (Text × Node) → List (Location × Node)
  | [] => []
  | (name, n) :: es => n.nodesAt (l ++ [name]) ++ nodesOf l es

end

/-! ### Laws -/

/-- Entering a name changes what stands at this name only. -/
theorem valueIn_enter (name name' : Text) (n : Node) (es : List (Text × Node)) :
    Roster.valueIn name' (enter name n es) =
      if name' = name then some n else Roster.valueIn name' es := by
  unfold enter
  split
  · next h =>
    by_cases hn : name' = name
    · rw [if_pos hn, hn]
      exact Roster.valueIn_replaceIn_self h n
    · rw [if_neg hn]
      exact Roster.valueIn_replaceIn_of_ne hn n es
  · next h => exact Roster.valueIn_append_singleton h name' n

/-- What is put at a location is seen there. -/
theorem get?_put_self (n m : Node) (l : Location) : (put n m l).get? l = some n := by
  induction l generalizing m with
  | nil => rw [put, get?]
  | cons name l ih =>
    rw [put, get?, entries, valueIn_enter, if_pos rfl]
    exact ih _

/-- What stands neither on the way to a location nor below it stays. -/
theorem get?_put_of_apart (n m : Node) {l l' : Location} (h : ¬ l <+: l') (h' : ¬ l' <+: l) :
    (put n m l).get? l' = m.get? l' := by
  induction l generalizing m l' with
  | nil => exact absurd List.nil_prefix h
  | cons name l ih =>
    cases l' with
    | nil => exact absurd List.nil_prefix h'
    | cons name' l' =>
      rw [put, get?, get?, entries, valueIn_enter]
      by_cases hn : name' = name
      · subst hn
        rw [List.prefix_cons_inj] at h h'
        rw [if_pos rfl]
        cases hv : Roster.valueIn name' m.entries with
        | some m' => exact ih m' h h'
        | none =>
          -- There was nothing on the way; of what is made there, only `n` is new.
          have := ih (directory []) h h'
          cases l' with
          | nil => exact absurd List.nil_prefix h'
          | cons name' l' => exact this
      · rw [if_neg hn]

end Node

end TestGrid.Files
