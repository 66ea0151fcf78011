import TestGrid.Files.Path
import TestGrid.Journal.Note

/-!
# Loggers

A logger takes the records of its name to its handlers, from a level on. Names
are parted by dots: what stands in front of a dot is *above* the whole. The
root, which is above all others, answers to its own name and to the empty one.

* `Logger.above` gives the names above a name, the nearest one first;
* `Logger.length_lt_of_mem_above`: they are shorter, so that going up ends.
-/

namespace TestGrid

open Files

/-- Where the records of a logger go. -/
inductive Handler where
  | screen
  /-- A log file, by its path from the root. -/
  | file (path : Path)
  deriving DecidableEq, Repr

/-- A logger: the level below which records are dropped, and where the others
    go. -/
structure Logger where
  level : Level := .unset
  handlers : List Handler := []
  deriving DecidableEq, Repr

namespace Logger

/-- The log files of a logger. -/
def files (l : Logger) : List Path :=
  l.handlers.filterMap fun
    | .file p => some p
    | .screen => none

/-- The logger with a handler for the screen that takes the place of any it has
    had. -/
def onScreen (l : Logger) : Logger :=
  { l with handlers := l.handlers.filter (· ≠ .screen) ++ [.screen] }

/-- The name of the root. -/
def root : Text := "root".toList

/-- The name of the logger that answers to a name. -/
def nameFor (name : Text) : Text := if name.isEmpty then root else name

/-- The numbers of a list, without any that is one less than the number kept in
    front of it. -/
def spaced : List Nat → List Nat
  | [] => []
  | [n] => [n]
  | n :: m :: ns => if m + 1 = n then n :: spaced ns else n :: spaced (m :: ns)

theorem mem_of_mem_spaced {n : Nat} {ns : List Nat} (h : n ∈ spaced ns) : n ∈ ns := by
  fun_induction spaced ns with
  | case1 => exact h
  | case2 => exact h
  | case3 _ _ ih =>
    rcases List.mem_cons.1 h with h | h
    · exact h ▸ List.mem_cons_self
    · exact List.mem_cons_of_mem _ (List.mem_cons_of_mem _ (ih h))
  | case4 _ _ _ _ ih =>
    rcases List.mem_cons.1 h with h | h
    · exact h ▸ List.mem_cons_self
    · exact List.mem_cons_of_mem _ (ih h)

/-- The names above a name, the nearest one first. A dot just in front of a dot
    that parts the name, or in front of the name, does not part it. -/
def above (name : Text) : List Text :=
  let dots := (List.range name.length).filter fun n => 0 < n ∧ name[n]? = some '.'
  (spaced dots.reverse).map name.take

/-- A name above another one is shorter. -/
theorem length_lt_of_mem_above {name upper : Text} (h : upper ∈ above name) :
    upper.length < name.length := by
  obtain ⟨n, hn, rfl⟩ := List.mem_map.1 h
  have hn := List.mem_range.1 (List.mem_filter.1 (List.mem_reverse.1 (mem_of_mem_spaced hn))).1
  exact Nat.lt_of_le_of_lt (List.length_take_le n name) hn

end Logger

end TestGrid
