import Mathlib.Data.List.Count
import TestGrid.Proofs.Catalog
import TestGrid.Proofs.Places
import TestGrid.Proofs.Plan

/-!
# Repeated lineups

Nothing between the texts and the grid looks for repetitions. A catalog keeps a
version as often as its text lists it, and the rules keep a literal as often as
it is stated; whichever of the two a component is given its versions from, they
are as often among them (`Selection.count_choice`). A grid has a lineup once for
each way to take its versions (`Grid.count_spread`). So a lineup stands in a grid
as often as the numbers of times that its versions are listed multiply to, and
no lineup stands there twice if and only if no version is listed twice
(`Plan.grid_repeats_what_is_listed`).
-/

namespace TestGrid

namespace Grid

/-- A crossing has a lineup as often as it was there, for each time that its new
    version is listed. -/
theorem count_cross (grid : Grid) (component v : Text) (versions : List Text) (l : Lineup) :
    (grid.cross component versions).count (l.extend component v) =
      versions.count v * grid.count l := by
  induction versions with
  | nil => simp [cross]
  | cons w versions ih =>
    have hmap : (grid.map (·.extend component w)).count (l.extend component v) =
        if w = v then grid.count l else 0 := by
      by_cases hw : w = v
      · subst hw
        rw [if_pos rfl]
        exact List.count_map_of_injective grid _ (fun _ _ h => (Lineup.extend_inj.1 h).1) l
      · rw [if_neg hw, List.count_eq_zero]
        intro hm
        obtain ⟨_, -, h⟩ := List.mem_map.1 hm
        exact hw (Lineup.extend_inj.1 h).2
    rw [cross_cons, List.count_append, hmap, ih, List.count_cons]
    by_cases hw : w = v
    · simp [hw, Nat.succ_mul, Nat.add_comm]
    · simp [hw]

/-- Crossing with entries in turn has a lineup as often as its beginning was
    there, times how often each entry lists the version that is taken from it. -/
theorem count_foldl_cross {entries : List (Text × List Text)} {times : Text × Text → Nat}
    (h : ∀ e ∈ entries, ∀ v ∈ e.2, e.2.count v = times (e.1, v)) {lineup : Lineup}
    (ht : lineup.Takes entries) (grid : Grid) (l : Lineup) :
    (entries.foldl (fun grid (c, vs) => grid.cross c vs) grid).count (l ++ lineup) =
      grid.count l * (lineup.map times).prod := by
  induction ht generalizing grid l with
  | nil => simp
  | @cons p e lineup entries hp _ ih =>
    obtain ⟨he, h⟩ := List.forall_mem_cons.1 h
    have hl : l ++ p :: lineup = l.extend e.1 p.2 ++ lineup := by
      rw [Lineup.extend, ← hp.1, List.append_assoc]
      rfl
    rw [List.foldl_cons, hl, ih h, count_cross, he p.2 hp.2, ← hp.1, List.map_cons, List.prod_cons,
      Nat.mul_comm (times _), Nat.mul_assoc]

/-- A lineup of a grid stands there as often as its versions are listed,
    multiplied. -/
theorem count_spread {entries : List (Text × List Text)} {times : Text × Text → Nat}
    (h : ∀ e ∈ entries, ∀ v ∈ e.2, e.2.count v = times (e.1, v)) {lineup : Lineup}
    (hl : lineup ∈ spread entries) : (spread entries).count lineup = (lineup.map times).prod := by
  have := count_foldl_cross h (mem_spread.1 hl) [[]] []
  rwa [List.count_singleton_self, Nat.one_mul] at this

end Grid

namespace Selection

/-- How often a version is listed where the versions of a component come from:
    among its candidates if one of them is included, else among the literals of
    its rules. -/
def timesListed (rules : List Rule) (candidates : List Text) (v : Text) : Nat :=
  if ∃ w ∈ candidates, Rule.Includes rules w then candidates.count v
  else (Rule.literals rules).count v

/-- A version is chosen as often as it is listed. -/
theorem count_choice {fallback : Bool} {rules : List Rule} {candidates : List Text} {v : Text}
    (hv : v ∈ choice fallback rules candidates) :
    (choice fallback rules candidates).count v = timesListed rules candidates v := by
  rw [choice] at hv ⊢
  rw [timesListed]
  by_cases hi : ∃ w ∈ candidates, Rule.Includes rules w
  · -- Some candidate is included, and so only candidates are chosen.
    have hn : ¬(fitting rules candidates = [] ∧ fallback = true) := by
      rw [fitting_eq_nil_iff]
      obtain ⟨w, hw, hi⟩ := hi
      exact fun h => h.1 w hw hi
    rw [if_neg hn] at hv ⊢
    rw [if_pos hi]
    exact List.count_filter (List.mem_filter.1 hv).2
  · have hn : fitting rules candidates = [] := fitting_eq_nil_iff.2 fun w hw h => hi ⟨w, hw, h⟩
    rw [hn] at hv ⊢
    rw [if_neg hi]
    by_cases hf : fallback = true
    · rw [if_pos ⟨rfl, hf⟩]
    · rw [if_neg fun h => hf h.2] at hv
      exact absurd hv List.not_mem_nil

end Selection

namespace Plan

/-- A plan selects for each component of its rule book from the versions that the
    text of the catalog lists for it, and for no other component. -/
theorem mem_selection_entries_iff {catalogText ruleText : Text} {fallback : Bool} {plan : Plan}
    (h : ofTexts catalogText ruleText fallback = .ok plan) {c : Text} {vs : List Text} :
    (c, vs) ∈ plan.selection.entries ↔ c ∈ plan.rules.keys ∧
      vs = Selection.choice fallback (plan.rules.rulesOf c) (Catalog.listed catalogText c) := by
  obtain ⟨hc, -, hs, -⟩ := ofTexts_eq_ok_iff.1 h
  have hentry {c : Text} {vs : List Text} (he : (c, vs) ∈ plan.selection.entries) :
      vs = Selection.choice fallback (plan.rules.rulesOf c) (Catalog.listed catalogText c) := by
    obtain ⟨candidates, hg, -, -, rfl⟩ := (Selection.mem_entries_iff hs).1 he
    rw [← Catalog.getD_get?_ofText hc, hg]
    rfl
  constructor
  · intro he
    have hk : c ∈ plan.selection.keys := List.mem_map_of_mem he
    exact ⟨(Selection.keys_perm hs).mem_iff.1 hk, hentry he⟩
  · rintro ⟨hk, rfl⟩
    obtain ⟨vs, hv⟩ := Roster.mem_keys_iff.1 ((Selection.keys_perm hs).mem_iff.2 hk)
    have he := Roster.get?_eq_some_iff.1 hv
    exact hentry he ▸ he

/-- A lineup stands in the grid of a plan as often as its versions are listed,
    multiplied; so no two lineups are the same if and only if each version that
    is fit for a component is listed once. -/
theorem grid_repeats_what_is_listed {catalogText ruleText : Text} {fallback : Bool} {plan : Plan}
    (h : (assemble catalogText ruleText fallback).result.1 = .ok plan) :
    RuleBook.ofText ruleText = .ok plan.rules ∧
    (∀ lineup ∈ plan.grid, plan.grid.count lineup =
      (lineup.map fun p => Selection.timesListed (plan.rules.rulesOf p.1)
        (Catalog.listed catalogText p.1) p.2).prod) ∧
    (plan.grid.Nodup ↔ ∀ c ∈ plan.rules.keys, ∀ v,
      Selection.Fit fallback (plan.rules.rulesOf c) (Catalog.listed catalogText c) v →
        Selection.timesListed (plan.rules.rulesOf c) (Catalog.listed catalogText c) v = 1) := by
  rw [assemble_result] at h
  obtain ⟨-, hr, -, hg⟩ := ofTexts_eq_ok_iff.1 h
  obtain ⟨⟨-, hn⟩, hg⟩ := Grid.ofSelection_eq_ok_iff.1 hg
  have hcount : ∀ e ∈ plan.selection.entries, ∀ v ∈ e.2, e.2.count v =
      Selection.timesListed (plan.rules.rulesOf e.1) (Catalog.listed catalogText e.1) v := by
    intro e he v hv
    rw [((mem_selection_entries_iff h).1 he).2] at hv ⊢
    exact Selection.count_choice hv
  refine ⟨hr, fun lineup hl => ?_, ?_⟩
  · rw [hg] at hl ⊢
    exact Grid.count_spread hcount hl
  · rw [hg, Grid.nodup_spread_iff hn]
    simp only [List.nodup_iff_count_eq_one, ← Selection.mem_choice_iff]
    constructor
    · intro hd c hc v hv
      have he := (mem_selection_entries_iff h).2 ⟨hc, rfl⟩
      rw [← hcount _ he v hv]
      exact hd _ he v hv
    · intro hd e he v hv
      rw [hcount e he v hv]
      obtain ⟨hk, hv'⟩ := (mem_selection_entries_iff h).1 he
      exact hd e.1 hk v (hv' ▸ hv)

/-- A candidate that is listed in two entries and a literal that is stated twice
    make four lineups of one. -/
theorem four_lineups_of_one :
    ∃ plan, (assemble "dubbo:2.7.7;dubbo:2.7.7,2.7.8;spring:5.1".toList
        "spring=6.0, 6.0\ndubbo=2.7.7".toList true).result.1 = .ok plan ∧
      plan.grid.count [("dubbo".toList, "2.7.7".toList), ("spring".toList, "6.0".toList)] = 4 := by
  obtain ⟨plan, h, hd, hs, hl⟩ :
      ∃ plan, (assemble "dubbo:2.7.7;dubbo:2.7.7,2.7.8;spring:5.1".toList
          "spring=6.0, 6.0\ndubbo=2.7.7".toList true).result.1 = .ok plan ∧
        plan.rules.rulesOf "dubbo".toList = [.literal "2.7.7".toList false] ∧
        plan.rules.rulesOf "spring".toList =
          [.literal "6.0".toList false, .literal "6.0".toList false] ∧
        plan.grid[0]? = some [("dubbo".toList, "2.7.7".toList), ("spring".toList, "6.0".toList)] :=
    ⟨_, rfl, rfl, rfl, rfl⟩
  refine ⟨plan, h, ?_⟩
  rw [(grid_repeats_what_is_listed h).2.1 _ (List.mem_of_getElem? hl), List.map_cons, List.map_cons,
    List.map_nil, hd, hs]
  decide

/-- A candidate that is listed twice is tested twice, and so is a literal that is
    stated twice and stands in. -/
theorem listed_twice_tested_twice :
    (∃ plan, (assemble "a:1,1".toList "a=1".toList false).result.1 = .ok plan ∧
      plan.grid = [[("a".toList, "1".toList)], [("a".toList, "1".toList)]] ∧ ¬plan.grid.Nodup) ∧
    ∃ plan, (assemble "a:2".toList "a=1,1".toList true).result.1 = .ok plan ∧
      plan.grid = [[("a".toList, "1".toList)], [("a".toList, "1".toList)]] ∧ ¬plan.grid.Nodup := by
  have hn : ¬[[("a".toList, "1".toList)], [("a".toList, "1".toList)]].Nodup := by decide
  exact ⟨⟨_, rfl, rfl, hn⟩, ⟨_, rfl, rfl, hn⟩⟩

end Plan

end TestGrid
