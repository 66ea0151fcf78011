import Mathlib.Algebra.BigOperators.Ring.List
import Mathlib.Algebra.GroupWithZero.Nat
import Mathlib.Data.List.Forall2
import TestGrid.Grid

/-!
# Grids as products

The grid of a selection is the product of its lists of versions. A lineup
*takes* one version from each entry, in the order of the entries; the grid has
these lineups and no others (`mem_spread`), and there are as many as the product
of the numbers of versions (`length_spread`). So it is empty if and only if some
component has no version.
-/

namespace TestGrid

/-- The lineup has one version from each entry, in order. -/
def Lineup.Takes (lineup : Lineup) (entries : List (Text × List Text)) : Prop :=
  List.Forall₂ (fun p e => p.1 = e.1 ∧ p.2 ∈ e.2) lineup entries

/-- In entries of different components, a lineup takes its versions if and only
    if it has their components in order, each with one of its versions. -/
theorem Lineup.takes_iff {lineup : Lineup} {entries : List (Text × List Text)}
    (h : (entries.map Prod.fst).Nodup) : lineup.Takes entries ↔
      lineup.map Prod.fst = entries.map Prod.fst ∧
        ∀ p ∈ lineup, ∃ vs, (p.1, vs) ∈ entries ∧ p.2 ∈ vs := by
  constructor
  · intro ht
    refine ⟨?_, ?_⟩
    · rw [← List.forall₂_eq_eq_eq, List.forall₂_map_left_iff, List.forall₂_map_right_iff]
      exact ht.imp fun _ _ hp => hp.1
    · clear h
      induction ht with
      | nil => exact fun _ hp => absurd hp List.not_mem_nil
      | @cons p e lineup entries hp _ ih =>
        refine List.forall_mem_cons.2 ⟨⟨e.2, ?_, hp.2⟩, fun q hq => ?_⟩
        · rw [hp.1]
          exact List.mem_cons_self
        · obtain ⟨vs, hm, hv⟩ := ih q hq
          exact ⟨vs, List.mem_cons_of_mem _ hm, hv⟩
  · rintro ⟨hk, hv⟩
    induction entries generalizing lineup with
    | nil =>
      obtain rfl := List.map_eq_nil_iff.1 hk
      exact .nil
    | cons e entries ih =>
      obtain ⟨p, lineup, rfl, hp, hk⟩ := List.map_eq_cons_iff.1 hk
      rw [List.map_cons, List.nodup_cons] at h
      rw [List.forall_mem_cons] at hv
      obtain ⟨vs, hm, hvs⟩ := hv.1
      refine .cons ⟨hp, ?_⟩ (ih h.2 hk fun q hq => ?_)
      · -- The component stands only at the head, so the version is from there.
        rcases List.mem_cons.1 hm with he | hm
        · exact he ▸ hvs
        · exact absurd (List.mem_map_of_mem hm) (hp ▸ h.1)
      · obtain ⟨ws, hm, hw⟩ := hv.2 q hq
        refine ⟨ws, (List.mem_cons.1 hm).resolve_left fun he => h.1 ?_, hw⟩
        rw [← he, ← hk]
        exact List.mem_map_of_mem hq

namespace Grid

/-- Crossing with entries in turn goes on with what each of them has to take. -/
theorem mem_foldl_cross {grid : Grid} {entries : List (Text × List Text)} {lineup : Lineup} :
    lineup ∈ entries.foldl (fun grid (component, versions) => grid.cross component versions) grid ↔
      ∃ l ∈ grid, ∃ l', l'.Takes entries ∧ l ++ l' = lineup := by
  induction entries generalizing grid with
  | nil =>
    constructor
    · exact fun h => ⟨lineup, h, [], .nil, List.append_nil _⟩
    · rintro ⟨l, hl, _, ⟨⟩, rfl⟩
      rw [List.append_nil]
      exact hl
  | cons e entries ih =>
    obtain ⟨component, versions⟩ := e
    rw [List.foldl_cons, ih]
    constructor
    · rintro ⟨_, hl, l', ht, rfl⟩
      obtain ⟨v, hv, l, hm, rfl⟩ := mem_cross.1 hl
      exact ⟨l, hm, (component, v) :: l', .cons ⟨rfl, hv⟩ ht, by simp [Lineup.extend]⟩
    · rintro ⟨l, hl, _, ht, rfl⟩
      cases ht with
      | @cons p _ l' _ hp ht =>
        obtain ⟨c, v⟩ := p
        obtain ⟨rfl, hv⟩ := hp
        exact ⟨_, mem_cross.2 ⟨v, hv, l, hl, rfl⟩, l', ht, by simp [Lineup.extend]⟩

/-- The lineups of a grid are those that take one version from each entry. -/
theorem mem_spread {entries : List (Text × List Text)} {lineup : Lineup} :
    lineup ∈ spread entries ↔ lineup.Takes entries := by
  rw [spread, mem_foldl_cross]
  simp

/-- There is one lineup for each way to take the versions. -/
theorem length_spread (entries : List (Text × List Text)) :
    (spread entries).length = (entries.map fun e => e.2.length).prod := by
  suffices h : ∀ grid : Grid, (entries.foldl (fun grid (c, vs) => grid.cross c vs) grid).length =
      grid.length * (entries.map fun e => e.2.length).prod by
    rw [spread, h, List.length_singleton, Nat.one_mul]
  induction entries with
  | nil => exact fun grid => (Nat.mul_one _).symm
  | cons e entries ih =>
    intro grid
    rw [List.foldl_cons, ih, length_cross, List.map_cons, List.prod_cons, Nat.mul_comm e.2.length,
      Nat.mul_assoc]

/-- A grid is empty if and only if some component has no version. -/
theorem spread_eq_nil_iff {entries : List (Text × List Text)} :
    spread entries = [] ↔ ∃ e ∈ entries, e.2 = [] := by
  rw [← List.length_eq_zero_iff, length_spread, List.prod_eq_zero_iff, List.mem_map]
  simp only [List.length_eq_zero_iff]

/-- If no component is without versions, there is a lineup with each version of
    each component. -/
theorem exists_mem_spread_iff {entries : List (Text × List Text)} (h : ∀ e ∈ entries, e.2 ≠ [])
    {c v : Text} : (∃ lineup ∈ spread entries, (c, v) ∈ lineup) ↔
      ∃ vs, (c, vs) ∈ entries ∧ v ∈ vs := by
  simp only [mem_spread]
  induction entries with
  | nil =>
    refine iff_of_false ?_ fun ⟨_, he, _⟩ => absurd he List.not_mem_nil
    rintro ⟨_, ⟨⟩, hm⟩
    exact absurd hm List.not_mem_nil
  | cons e entries ih =>
    obtain ⟨hne, hrest⟩ := List.forall_mem_cons.1 h
    constructor
    · rintro ⟨_, ht, hm⟩
      cases ht with
      | @cons p _ lineup _ hp ht =>
        rcases List.mem_cons.1 hm with rfl | hm
        · obtain ⟨rfl, hp⟩ : c = e.1 ∧ v ∈ e.2 := hp
          exact ⟨e.2, List.mem_cons_self, hp⟩
        · obtain ⟨vs, he, hv⟩ := (ih hrest).1 ⟨lineup, ht, hm⟩
          exact ⟨vs, List.mem_cons_of_mem e he, hv⟩
    · rintro ⟨vs, he, hm⟩
      rcases List.mem_cons.1 he with rfl | he
      · have hn : spread entries ≠ [] := mt spread_eq_nil_iff.1 fun ⟨e, he, hn⟩ => hrest e he hn
        obtain ⟨lineup, hl⟩ := List.exists_mem_of_ne_nil _ hn
        exact ⟨(c, v) :: lineup, .cons ⟨rfl, hm⟩ (mem_spread.1 hl), List.mem_cons_self⟩
      · obtain ⟨lineup, ht, hl⟩ := (ih hrest).2 ⟨vs, he, hm⟩
        obtain ⟨w, hw⟩ := List.exists_mem_of_ne_nil _ hne
        exact ⟨(e.1, w) :: lineup, .cons ⟨rfl, hw⟩ ht, List.mem_cons_of_mem _ hl⟩

/-- A selection has a grid if it has a component and each of its components has
    a version. -/
theorem ofSelection_eq_ok_iff {selection : Selection} {grid : Grid} :
    ofSelection selection = .ok grid ↔
      (selection.entries ≠ [] ∧ ∀ e ∈ selection.entries, e.2 ≠ []) ∧
        grid = spread selection.entries := by
  have hn : (∀ e ∈ selection.entries, e.2 ≠ []) ↔ spread selection.entries ≠ [] := by
    rw [Ne, spread_eq_nil_iff]
    exact ⟨fun h ⟨e, he, hv⟩ => h e he hv, fun h e he hv => h ⟨e, he, hv⟩⟩
  rw [hn, ofSelection]
  simp only [Roster.isEmpty, Bool.or_eq_true, List.isEmpty_iff]
  split
  · next h =>
    constructor
    · intro hg
      cases hg
    · exact fun hg => absurd h (not_or.2 hg.1)
  · next h => exact ⟨fun hg => ⟨not_or.1 h, (Except.ok.inj hg).symm⟩, fun hg => hg.2 ▸ rfl⟩

end Grid

end TestGrid
