import Mathlib.Data.List.Induction
import Mathlib.Data.List.Nodup
import TestGrid.Proofs.Grid

/-!
# The places of lineups

In the grid of a selection the versions of the first component vary fastest, and
those of any other component vary once the components in front of it have gone
through all their ways. So the place of a lineup in the grid is a numeral in a
mixed base, whose last digit belongs to the first component, and the versions
of the lineup are found at the digits (`getElem?_spread`).

No lineup stands in a grid twice if and only if no component has a version twice
(`nodup_spread_iff`).
-/

namespace TestGrid

/-- Lineups with one more component are the same if they were the same before and
    have the same version of it. -/
theorem Lineup.extend_inj {l l' : Lineup} {component v v' : Text} :
    l.extend component v = l'.extend component v' ↔ l = l' ∧ v = v' := by
  rw [extend, extend, List.append_singleton_inj, Prod.mk.injEq]
  exact and_congr_right fun _ => ⟨fun h => h.2, fun h => ⟨rfl, h⟩⟩

namespace Grid

/-- The number of ways to take one version from each entry. -/
def ways (entries : List (Text × List Text)) : Nat := (entries.map fun e => e.2.length).prod

theorem ways_append (entries entries' : List (Text × List Text)) :
    ways (entries ++ entries') = ways entries * ways entries' := by
  rw [ways, List.map_append, List.prod_append]
  rfl

theorem ways_cons (e : Text × List Text) (entries : List (Text × List Text)) :
    ways (e :: entries) = e.2.length * ways entries := by
  rw [ways, List.map_cons, List.prod_cons]
  rfl

/-- The entries in front of one count to it, and it counts to those behind. -/
theorem ways_eq_of_getElem? {entries : List (Text × List Text)} {j : Nat} {e : Text × List Text}
    (h : entries[j]? = some e) :
    ways entries = ways (entries.take j) * (e.2.length * ways (entries.drop (j + 1))) := by
  obtain ⟨hj, rfl⟩ := List.getElem?_eq_some_iff.1 h
  rw [← ways_cons, List.getElem_cons_drop, ← ways_append, List.take_append_drop]

/-- The last entry is crossed with the grid of the others. -/
theorem spread_concat (entries : List (Text × List Text)) (e : Text × List Text) :
    spread (entries ++ [e]) = (spread entries).cross e.1 e.2 := by
  rw [spread, List.foldl_append]
  rfl

/-! ## Places -/

/-- A crossing goes through the whole grid for each of the versions. -/
theorem getElem?_cross {grid : Grid} {component v : Text} {versions : List Text} {lineup : Lineup}
    {i : Nat} (hv : versions[i / grid.length]? = some v)
    (hl : grid[i % grid.length]? = some lineup) :
    (grid.cross component versions)[i]? = some (lineup.extend component v) := by
  induction versions generalizing i with
  | nil => cases hv
  | cons w versions ih =>
    have hn : 0 < grid.length :=
      (Nat.zero_le _).trans_lt (List.getElem?_eq_some_iff.1 hl).1
    rw [cross_cons]
    by_cases hi : i < grid.length
    · -- The place is among the lineups of the first version.
      rw [Nat.div_eq_of_lt hi] at hv
      rw [Nat.mod_eq_of_lt hi] at hl
      cases hv
      rw [List.getElem?_append_left (by rwa [List.length_map]), List.getElem?_map, hl]
      rfl
    · have hi : grid.length ≤ i := Nat.le_of_not_lt hi
      rw [Nat.div_eq_sub_div hn hi, List.getElem?_cons_succ] at hv
      rw [Nat.mod_eq_sub_mod hi] at hl
      rw [List.getElem?_append_right (by rwa [List.length_map]), List.length_map]
      exact ih hv hl

/-- The lineup at a place takes from each entry the version at a digit of the
    place: the entry divides the place by the ways of the entries in front. -/
theorem getElem?_spread {entries : List (Text × List Text)} {i : Nat} (hi : i < ways entries) :
    ∃ lineup : Lineup, (spread entries)[i]? = some lineup ∧ lineup.length = entries.length ∧
      ∀ j c versions, entries[j]? = some (c, versions) →
        ∃ v, versions[i / ways (entries.take j) % versions.length]? = some v ∧
          lineup[j]? = some (c, v) := by
  induction entries using List.reverseRecOn generalizing i with
  | nil =>
    obtain rfl : i = 0 := Nat.lt_one_iff.1 hi
    exact ⟨[], rfl, rfl, fun j c versions h => by cases h⟩
  | append_singleton entries e ih =>
    have hw : ways (entries ++ [e]) = ways entries * e.2.length := by
      rw [ways_append, ways_cons]
      exact congrArg _ (Nat.mul_one _)
    have hlen : (spread entries).length = ways entries := length_spread entries
    rw [hw] at hi
    have hpos : 0 < ways entries := Nat.pos_of_mul_pos_right ((Nat.zero_le i).trans_lt hi)
    have hdiv : i / ways entries < e.2.length := Nat.div_lt_of_lt_mul hi
    obtain ⟨lineup, hl, hll, hd⟩ := ih (Nat.mod_lt i hpos)
    obtain ⟨v, hv⟩ : ∃ v, e.2[i / ways entries]? = some v := ⟨_, List.getElem?_eq_getElem hdiv⟩
    refine ⟨lineup.extend e.1 v, ?_, ?_, fun j c versions hj => ?_⟩
    · rw [spread_concat]
      exact getElem?_cross (by rwa [hlen]) (by rwa [hlen])
    · rw [Lineup.extend, List.length_append, List.length_append, hll]
      rfl
    · rcases Nat.lt_trichotomy j entries.length with hlt | rfl | hgt
      · -- An entry in front has the digit it has in the grid of the others.
        rw [List.getElem?_append_left hlt] at hj
        obtain ⟨u, hu, hlj⟩ := hd j c versions hj
        refine ⟨u, ?_, ?_⟩
        · rw [ways_eq_of_getElem? hj, Nat.mod_mul_right_div_self, Nat.mod_mul_right_mod] at hu
          rw [List.take_append_of_le_length hlt.le]
          exact hu
        · rw [Lineup.extend, List.getElem?_append_left (hll ▸ hlt)]
          exact hlj
      · -- The last entry has the highest digit, which needs no remainder.
        rw [List.getElem?_concat_length, Option.some_inj] at hj
        subst hj
        refine ⟨v, ?_, ?_⟩
        · rw [List.take_left, Nat.mod_eq_of_lt hdiv]
          exact hv
        · rw [Lineup.extend, ← hll, List.getElem?_concat_length]
      · have hnone : (entries ++ [e])[j]? = none := by
          rw [List.getElem?_eq_none_iff, List.length_append, List.length_singleton]
          exact hgt
        rw [hnone] at hj
        cases hj

/-! ## Repetitions -/

/-- A crossing repeats no lineup if and only if nothing crossed is repeated. -/
theorem nodup_cross_iff {grid : Grid} {versions : List Text} (hg : grid ≠ []) (hv : versions ≠ [])
    (component : Text) :
    (grid.cross component versions).Nodup ↔ grid.Nodup ∧ versions.Nodup := by
  have hmap (v : Text) : (grid.map (·.extend component v)).Nodup ↔ grid.Nodup :=
    List.nodup_map_iff fun _ _ h => (Lineup.extend_inj.1 h).1
  have hapart (v w : Text) : List.Disjoint (grid.map (·.extend component v))
      (grid.map (·.extend component w)) ↔ v ≠ w := by
    constructor
    · rintro h rfl
      obtain ⟨l, hl⟩ := List.exists_mem_of_ne_nil grid hg
      exact h (List.mem_map_of_mem hl) (List.mem_map_of_mem hl)
    · intro h l hl hl'
      obtain ⟨_, _, rfl⟩ := List.mem_map.1 hl
      obtain ⟨_, _, he⟩ := List.mem_map.1 hl'
      exact h (Lineup.extend_inj.1 he).2.symm
  rw [cross, List.nodup_flatMap]
  refine and_congr ?_ ?_
  · simp only [hmap]
    obtain ⟨v, hv⟩ := List.exists_mem_of_ne_nil versions hv
    exact ⟨fun h => h v hv, fun h _ _ => h⟩
  · exact List.Pairwise.iff fun {v w} => hapart v w

/-- A grid repeats no lineup if and only if no entry repeats a version. -/
theorem nodup_spread_iff {entries : List (Text × List Text)} (h : ∀ e ∈ entries, e.2 ≠ []) :
    (spread entries).Nodup ↔ ∀ e ∈ entries, e.2.Nodup := by
  induction entries using List.reverseRecOn with
  | nil => simp [spread]
  | append_singleton entries e ih =>
    rw [List.forall_mem_append, List.forall_mem_singleton] at h
    have hg : spread entries ≠ [] := by
      rw [Ne, spread_eq_nil_iff]
      rintro ⟨e, he, hv⟩
      exact h.1 e he hv
    rw [spread_concat, nodup_cross_iff hg h.2, ih h.1, List.forall_mem_append,
      List.forall_mem_singleton]

/-- The grid of a selection with components fails if and only if some component
    has no version. Otherwise it has one lineup for each way to take the
    versions, in the order of the numerals whose digits are the places of the
    versions, the first component giving the last digit; and no two lineups are
    the same if and only if no component has a version twice. -/
theorem ofSelection_in_order {selection : Selection} (h : selection.entries ≠ []) :
    (ofSelection selection = .error .emptyGrid ↔ ∃ e ∈ selection.entries, e.2 = []) ∧
    ((∀ e ∈ selection.entries, e.2 ≠ []) → ∃ grid, ofSelection selection = .ok grid ∧
      grid.length = ways selection.entries ∧
      (∀ i < ways selection.entries, ∃ lineup : Lineup,
        grid[i]? = some lineup ∧ lineup.length = selection.entries.length ∧
        ∀ j c versions, selection.entries[j]? = some (c, versions) →
          ∃ v, versions[i / ways (selection.entries.take j) % versions.length]? = some v ∧
            lineup[j]? = some (c, v)) ∧
      (grid.Nodup ↔ ∀ e ∈ selection.entries, e.2.Nodup)) := by
  refine ⟨?_, fun hv => ?_⟩
  · rw [← spread_eq_nil_iff, ofSelection]
    simp only [Roster.isEmpty, Bool.or_eq_true, List.isEmpty_iff, h, false_or]
    split
    · next hs => exact ⟨fun _ => hs, fun _ => rfl⟩
    · next hs =>
      refine ⟨fun he => ?_, fun he => absurd he hs⟩
      cases he
  · refine ⟨spread selection.entries, ofSelection_eq_ok_iff.2 ⟨⟨h, hv⟩, rfl⟩,
      length_spread _, fun i hi => getElem?_spread hi, nodup_spread_iff hv⟩

/-- Three goes twice into the two versions of the first component with one left
    over, so at place three both components have their second version. -/
theorem lineup_in_order_at_three :
    let selection : Selection := .ofList [("dubbo".toList, ["2.7.7".toList, "2.7.8".toList]),
      ("spring".toList, ["5.1".toList, "5.2".toList, "6.0".toList])]
    selection.entries ≠ [] ∧ (∀ e ∈ selection.entries, e.2 ≠ []) ∧
      ∃ grid, ofSelection selection = .ok grid ∧ grid.length = 6 ∧
        (∃ lineup : Lineup, grid[3]? = some lineup ∧ lineup.length = 2 ∧
          lineup[0]? = some ("dubbo".toList, "2.7.8".toList) ∧
          lineup[1]? = some ("spring".toList, "5.2".toList)) ∧
        grid.Nodup := by
  intro selection
  have hn : selection.entries ≠ [] := List.cons_ne_nil _ _
  have hv : ∀ e ∈ selection.entries, e.2 ≠ [] := by decide
  obtain ⟨grid, hg, hl, hp, hd⟩ := (ofSelection_in_order hn).2 hv
  obtain ⟨lineup, hi, hk, ht⟩ := hp 3 (by decide)
  obtain ⟨u, hu, h₀⟩ := ht 0 _ _ rfl
  obtain ⟨v, hv', h₁⟩ := ht 1 _ _ rfl
  obtain rfl : u = "2.7.8".toList := Option.some.inj (hu.symm.trans (by decide +kernel))
  obtain rfl : v = "5.2".toList := Option.some.inj (hv'.symm.trans (by decide +kernel))
  exact ⟨hn, hv, grid, hg, hl, ⟨lineup, hi, hk, h₀, h₁⟩, hd.2 (by decide)⟩

end Grid

end TestGrid
