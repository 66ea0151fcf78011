import Mathlib.Data.Multiset.Bind
import TestGrid.Proofs.Grid
import TestGrid.Proofs.Roster

/-!
# The order of the components of a selection

A lineup *assigns* a version to each of its components (`Lineup.assignment`); in
which order it names them does not count for this. The order of the components of a
selection does not count for the assignments of its grid, apart from the order in
which they are listed: the same ones are made, and each as often
(`Grid.same_assignments_in_any_order`).

A lineup that is extended assigns one more version, and a grid that is crossed has all
of its assignments updated with each version (`Grid.assignments_cross`). Updates of
different components may change places, and so may the crossings of a grid with them
(`Grid.updateAll_comm`).
-/

namespace TestGrid

namespace Lineup

/-- The version of a component in a lineup, if it is named. -/
def assignment (lineup : Lineup) : Text → Option Text := lineup.toRoster.get?

/-- One more component is assigned its version; the others keep theirs. -/
theorem assignment_extend (lineup : Lineup) (component version : Text) :
    (lineup.extend component version).assignment =
      Function.update lineup.assignment component (some version) := by
  funext c
  rw [assignment, toRoster, extend, Roster.ofList_concat, Roster.get?_insert]
  by_cases hc : c = component
  · rw [if_pos hc, hc, Function.update_self]
  · rw [if_neg hc, Function.update_of_ne hc]
    rfl

end Lineup

namespace Grid

/-- The assignments of a grid, each as often as lineups make it. -/
def assignments (grid : Grid) : Multiset (Text → Option Text) := grid.map Lineup.assignment

/-- Assignments with each of the versions for a component. -/
def updateAll (as : Multiset (Text → Option Text)) (e : Text × List Text) :
    Multiset (Text → Option Text) :=
  Multiset.bind e.2 fun v => as.map fun a => Function.update a e.1 (some v)

theorem assignments_cross (grid : Grid) (e : Text × List Text) :
    (grid.cross e.1 e.2).assignments = updateAll grid.assignments e := by
  have hmap (v : Text) : (grid.map (·.extend e.1 v)).map Lineup.assignment =
      (grid.map Lineup.assignment).map fun a => Function.update a e.1 (some v) := by
    rw [List.map_map, List.map_map]
    exact List.map_congr_left fun l _ => l.assignment_extend e.1 v
  rw [assignments, cross, List.map_flatMap, updateAll, assignments]
  simp only [hmap, Multiset.map_coe, Multiset.coe_bind]

/-- It makes no difference which of two components is assigned its versions first. -/
theorem updateAll_comm {e e' : Text × List Text} (h : e.1 ≠ e'.1)
    (as : Multiset (Text → Option Text)) :
    updateAll (updateAll as e) e' = updateAll (updateAll as e') e := by
  simp only [updateAll, Multiset.map_bind, Multiset.map_map, Function.comp_def]
  rw [Multiset.bind_bind]
  simp only [Function.update_comm h]

/-- Crossing with entries in turn updates the assignments with each of them. -/
theorem assignments_foldl_cross (entries : List (Text × List Text)) (grid : Grid) :
    (entries.foldl (fun grid (c, vs) => grid.cross c vs) grid).assignments =
      entries.foldl updateAll grid.assignments := by
  induction entries generalizing grid with
  | nil => rfl
  | cons e entries ih => rw [List.foldl_cons, List.foldl_cons, ← assignments_cross, ih]

/-- Of different components, grids in any order make the same assignments. -/
theorem assignments_spread_of_perm {entries entries' : List (Text × List Text)}
    (hn : (entries.map Prod.fst).Nodup) (h : entries.Perm entries') :
    (spread entries).assignments = (spread entries').assignments := by
  rw [spread, spread, assignments_foldl_cross, assignments_foldl_cross]
  refine h.foldl_eq' (fun e he e' he' as => ?_) _
  by_cases hc : e.1 = e'.1
  · rw [List.inj_on_of_nodup_map hn he he' hc]
  · exact updateAll_comm hc as

/-- A selection has no grid if and only if it has no component or one without
    versions. -/
theorem ofSelection_eq_error_iff {selection : Selection} {f : Fault} :
    ofSelection selection = .error f ↔
      (selection.entries = [] ∨ ∃ e ∈ selection.entries, e.2 = []) ∧ f = .emptyGrid := by
  rw [← spread_eq_nil_iff, ofSelection]
  simp only [Roster.isEmpty, Bool.or_eq_true, List.isEmpty_iff]
  split
  · next h => simp only [Except.error.injEq, h, true_and, @eq_comm _ f]
  · next h => simp only [reduceCtorEq, h, false_and]

/-- Let two selections have the same entries, in any order. If one has no grid, the
    other has none for the same reason; there is a grid if there are components, and all
    of them have versions. If one has a grid, so has the other, and their lineups make the
    same assignments, each as often, in some order. -/
theorem same_assignments_in_any_order {selection selection' : Selection}
    (h : selection.entries.Perm selection'.entries) :
    (∀ f, ofSelection selection = .error f ↔ ofSelection selection' = .error f) ∧
    ((∃ grid, ofSelection selection = .ok grid) ↔
      selection.entries ≠ [] ∧ ∀ e ∈ selection.entries, e.2 ≠ []) ∧
    ∀ grid, ofSelection selection = .ok grid → ∃ grid', ofSelection selection' = .ok grid' ∧
      (grid'.map Lineup.assignment).Perm (grid.map Lineup.assignment) := by
  refine ⟨fun f => ?_, ?_, fun grid hg => ?_⟩
  · have hnil : selection.entries = [] ↔ selection'.entries = [] :=
      ⟨fun he => List.nil_perm.1 (he ▸ h), fun he => List.perm_nil.1 (he ▸ h)⟩
    simp only [ofSelection_eq_error_iff, hnil, h.mem_iff]
  · simp only [ofSelection_eq_ok_iff, exists_and_left, exists_eq, and_true]
  · obtain ⟨⟨hne, hv⟩, rfl⟩ := ofSelection_eq_ok_iff.1 hg
    have hg' : ofSelection selection' = .ok (spread selection'.entries) := by
      refine ofSelection_eq_ok_iff.2 ⟨⟨fun he => ?_, fun e he => ?_⟩, rfl⟩
      · exact hne (List.perm_nil.1 (he ▸ h))
      · exact hv e (h.mem_iff.2 he)
    exact ⟨_, hg', Multiset.coe_eq_coe.1 (assignments_spread_of_perm selection.nodup h).symm⟩

/-- Of two components with two versions each, one listed twice, the lineups stand in
    another order if the components do, and so do the versions in the lineups. -/
theorem same_assignments_of_two_components :
    let a := ("a".toList, ["1".toList, "2".toList, "2".toList])
    let b := ("b".toList, ["3".toList, "4".toList])
    let selection : Selection := .ofList [a, b]
    let selection' : Selection := .ofList [b, a]
    selection.entries.Perm selection'.entries ∧
      ∃ grid grid', ofSelection selection = .ok grid ∧ ofSelection selection' = .ok grid' ∧
        grid[1]? = some [("a".toList, "2".toList), ("b".toList, "3".toList)] ∧
        grid'[1]? = some [("b".toList, "4".toList), ("a".toList, "1".toList)] ∧
        (grid'.map Lineup.assignment).Perm (grid.map Lineup.assignment) := by
  intro a b selection selection'
  have hperm : selection.entries.Perm selection'.entries := by decide
  obtain ⟨grid, hg, hsecond⟩ : ∃ grid, ofSelection selection = .ok grid ∧
      grid[1]? = some [("a".toList, "2".toList), ("b".toList, "3".toList)] := ⟨_, rfl, rfl⟩
  obtain ⟨grid', hg', hsame⟩ := (same_assignments_in_any_order hperm).2.2 grid hg
  refine ⟨hperm, grid, grid', hg, hg', hsecond, ?_, hsame⟩
  cases hg'
  rfl

end Grid

end TestGrid
