import TestGrid.Proofs.Catalog

/-!
# Catalogs of texts in two parts

Two catalogs are *merged* by putting what the second one has behind what the first
one has: new components come last, and a component of both keeps its place, with the
versions of the second catalog behind those of the first (`Catalog.merge`).

Merging goes along with entering versions (`Catalog.merge_add`), so reading goes on
behind a catalog as it begins with none, but for the merge
(`Catalog.foldlM_enter_merge`). A text in two parts between which entries end is
therefore read to the merge of what its parts are read to, or has the fault of the
first part that has one (`Catalog.ofText_append_cons`).
-/

namespace TestGrid

open Fallible

namespace Catalog

theorem contains_eq_decide (catalog : Catalog) (c : Text) :
    catalog.contains c = decide (c ∈ catalog.keys) := by
  rw [Bool.eq_iff_iff, Roster.contains_iff, decide_eq_true_iff]

/-- The components of a catalog, and behind them those which only a second one has.
    A component has its versions of the first catalog, and behind them those of the
    second one. -/
def merge (first second : Catalog) : Catalog where
  entries :=
    first.entries.map (fun (component, versions) =>
      (component, versions ++ (second.get? component).getD [])) ++
    second.entries.filter fun (component, _) => !first.contains component
  nodup := by
    rw [List.map_append, List.map_map, List.nodup_append]
    refine ⟨first.nodup, (List.filter_sublist.map Prod.fst).nodup second.nodup, ?_⟩
    rintro c hc _ hc' rfl
    obtain ⟨e, he, rfl⟩ := List.mem_map.1 hc'
    have hnew : (!first.contains e.1) = true := (List.mem_filter.1 he).2
    rw [Roster.contains_iff.2 hc] at hnew
    cases hnew

theorem keys_merge (first second : Catalog) :
    (first.merge second).keys = first.keys ++ second.keys.filter (· ∉ first.keys) := by
  simp only [decide_not, ← contains_eq_decide]
  rw [Roster.keys, merge, List.map_append, List.map_map, Roster.keys, Roster.keys,
    List.filter_map]
  rfl

/-- A component of both catalogs has the versions of both. -/
theorem get?_merge (first second : Catalog) (c : Text) :
    (first.merge second).get? c = Option.merge (· ++ ·) (first.get? c) (second.get? c) := by
  cases hf : first.get? c with
  | some vs =>
    have hmem : (c, vs ++ (second.get? c).getD []) ∈ (first.merge second).entries :=
      List.mem_append_left _ (List.mem_map.2 ⟨(c, vs), Roster.get?_eq_some_iff.1 hf, rfl⟩)
    rw [Roster.get?_eq_some_iff.2 hmem]
    cases second.get? c with
    | none => exact congrArg some (List.append_nil vs)
    | some vs' => rfl
  | none =>
    have hnew : c ∉ first.keys := Roster.get?_eq_none.1 hf
    cases hs : second.get? c with
    | some vs' =>
      have hmem : (c, vs') ∈ (first.merge second).entries :=
        List.mem_append_right _
          (List.mem_filter.2 ⟨Roster.get?_eq_some_iff.1 hs, by simp [contains_eq_decide, hnew]⟩)
      exact Roster.get?_eq_some_iff.2 hmem
    | none =>
      refine Roster.get?_eq_none.2 fun hm => ?_
      rw [keys_merge] at hm
      rcases List.mem_append.1 hm with hm | hm
      · exact hnew hm
      · exact Roster.get?_eq_none.1 hs (List.mem_of_mem_filter hm)

theorem merge_empty (first : Catalog) : first.merge ∅ = first := by
  refine Roster.ext_get? ?_ fun c => ?_
  · rw [keys_merge]
    exact List.append_nil _
  · rw [get?_merge]
    cases first.get? c <;> rfl

theorem get?_add (catalog : Catalog) (c k : Text) (vs : List Text) :
    (catalog.add c vs).get? k =
      if k = c then some ((catalog.get? c).getD [] ++ vs) else catalog.get? k :=
  Roster.get?_insert ..

/-- Versions that are entered in the second catalog come last in the merged one too. -/
theorem merge_add (first second : Catalog) (c : Text) (vs : List Text) :
    first.merge (second.add c vs) = (first.merge second).add c vs := by
  refine Roster.ext_get? ?_ fun k => ?_
  · rw [keys_merge, add, add, Roster.alter, Roster.alter, Roster.keys_insert, Roster.keys_insert,
      keys_merge]
    by_cases hs : c ∈ second.keys
    · by_cases hf : c ∈ first.keys <;> simp [hs, hf]
    · by_cases hf : c ∈ first.keys <;> simp [hs, hf]
  · rw [get?_add, get?_merge, get?_merge, get?_merge, get?_add]
    by_cases hk : k = c
    · subst hk
      rw [if_pos rfl, if_pos rfl]
      cases first.get? k <;> cases second.get? k <;> simp
    · rw [if_neg hk, if_neg hk]

/-- An entry is entered in the second catalog or in the merged one alike. -/
theorem enter_merge (first second : Catalog) (entry : Text) :
    enter (first.merge second) entry = (enter second entry).map first.merge := by
  rw [enter, enter]
  split
  · rfl
  · cases readEntry entry with
    | error f => rfl
    | ok e => exact congrArg Except.ok (merge_add first second e.1 e.2).symm

/-- Entries are read behind a catalog as they are behind one that it is merged
    with. -/
theorem foldlM_enter_merge (first second : Catalog) (entries : List Text) :
    entries.foldlM enter (first.merge second) =
      (entries.foldlM enter second).map first.merge := by
  induction entries generalizing second with
  | nil => rfl
  | cons entry entries ih =>
    rw [List.foldlM_cons, List.foldlM_cons, enter_merge]
    cases enter second entry with
    | error f => rfl
    | ok third => exact ih third

/-- A text in two parts, with the end of an entry between them, is read to the merge
    of what its parts are read to. If a part has a fault, the first one of these is
    the fault of the whole. -/
theorem ofText_append_cons (a b : Text) {c : Char} (hc : separates c = true) :
    ofText (a ++ c :: b) = do
      let first ← ofText a
      let second ← ofText b
      return first.merge second := by
  rw [ofText, Text.pieces_append_cons hc, List.foldlM_append]
  refine bind_congr fun first => ?_
  calc (b.pieces separates).foldlM enter first
      = (b.pieces separates).foldlM enter (first.merge ∅) := by rw [merge_empty]
    _ = (ofText b).map first.merge := foldlM_enter_merge first ∅ _

/-- A text in two parts, with a semicolon or a line feed between them, is read as its
    parts are:

    * if the first part has a fault, this is the fault of the whole;
    * if only the second part has one, it is that one;
    * if both have catalogs, that of the whole has the components of the first one in
      their order, and behind them those which only the second one has, in theirs. The
      versions of the second part come behind those of the first. -/
theorem ofText_in_two_parts {a b : Text} {c : Char} (hc : c = ';' ∨ c = '\n') :
    (∀ f, ofText a = .error f → ofText (a ++ c :: b) = .error f) ∧
    (∀ first, ofText a = .ok first →
      ∀ f, ofText b = .error f → ofText (a ++ c :: b) = .error f) ∧
    ∀ first second, ofText a = .ok first → ofText b = .ok second →
      ∃ both, ofText (a ++ c :: b) = .ok both ∧
        both.keys = first.keys ++ second.keys.filter (· ∉ first.keys) ∧
        ∀ component, both.get? component =
          Option.merge (· ++ ·) (first.get? component) (second.get? component) := by
  have hwhole := ofText_append_cons a b (c := c) (by simpa [separates] using hc)
  refine ⟨fun f ha => ?_, fun first ha f hb => ?_, fun first second ha hb => ?_⟩
  · rw [hwhole, ha]
    rfl
  · rw [hwhole, ha, hb]
    rfl
  · refine ⟨first.merge second, ?_, keys_merge first second, get?_merge first second⟩
    rw [hwhole, ha, hb]
    rfl

/-- A component without versions keeps its place, and takes the versions that the
    second part has for it; versions that are listed again are kept. -/
theorem two_parts_of_lines :
    ∃ first second both, ofText "a:1\nb:".toList = .ok first ∧
      ofText "c:1;b:2;a:3,1".toList = .ok second ∧
      ofText ("a:1\nb:".toList ++ '\n' :: "c:1;b:2;a:3,1".toList) = .ok both ∧
      both.keys = [['a'], ['b'], ['c']] ∧ both.get? ['a'] = some [['1'], ['3'], ['1']] ∧
      both.get? ['b'] = some [['2']] ∧ both.get? ['c'] = some [['1']] := by
  obtain ⟨first, second, ha, hb, hk, hget⟩ : ∃ first second : Catalog,
      ofText "a:1\nb:".toList = .ok first ∧ ofText "c:1;b:2;a:3,1".toList = .ok second ∧
      first.keys ++ second.keys.filter (· ∉ first.keys) = [['a'], ['b'], ['c']] ∧
      [['a'], ['b'], ['c']].map (fun component : Text =>
          Option.merge (· ++ ·) (first.get? component) (second.get? component)) =
        [some [['1'], ['3'], ['1']], some [['2']], some [['1']]] :=
    ⟨_, _, rfl, rfl, by decide, by decide⟩
  obtain ⟨both, hw, hkeys, hg⟩ := (ofText_in_two_parts (.inr rfl)).2.2 first second ha hb
  simp only [List.map_cons, List.map_nil, List.cons.injEq, ← hg, and_true] at hget
  exact ⟨first, second, both, ha, hb, hw, hkeys.trans hk, hget⟩

end Catalog

end TestGrid
