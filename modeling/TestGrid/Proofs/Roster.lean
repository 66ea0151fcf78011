import Mathlib.Data.List.Induction
import Mathlib.Data.List.Nodup
import TestGrid.Roster

/-!
# Rosters and their lists

A roster is looked into through its list of entries: a name has a value if and
only if the two stand there together (`get?_eq_some_iff`), for no name stands
twice. A list without repeated names is the list of its roster
(`entries_ofList`). A roster is known from its names in order and from their values
(`ext_get?`).
-/

namespace TestGrid.Roster

variable {κ α : Type} [DecidableEq κ]

theorem contains_iff {r : Roster κ α} {k : κ} : r.contains k = true ↔ k ∈ r.keys := by
  rw [contains, List.contains_iff_mem]

theorem mem_keys_iff {r : Roster κ α} {k : κ} : k ∈ r.keys ↔ ∃ a, r.get? k = some a := by
  rw [← get?_isSome, Option.isSome_iff_exists]

theorem valueIn_eq_none_iff {es : List (κ × α)} {k : κ} :
    valueIn k es = none ↔ k ∉ es.map Prod.fst := by
  rw [valueIn, Option.map_eq_none_iff, List.find?_eq_none]
  simp only [decide_eq_true_eq, List.mem_map, not_exists, not_and]

/-- In a list without repeated names, a name has the value it stands with. -/
theorem valueIn_eq_some_iff {es : List (κ × α)} (h : (es.map Prod.fst).Nodup) {k : κ} {a : α} :
    valueIn k es = some a ↔ (k, a) ∈ es := by
  induction es with
  | nil => simp [valueIn]
  | cons e es ih =>
    rw [List.map_cons, List.nodup_cons] at h
    rw [valueIn_cons, List.mem_cons]
    by_cases he : e.1 = k
    · subst he
      rw [if_pos rfl, Option.some_inj]
      constructor
      · rintro rfl
        exact .inl rfl
      · rintro (he | hm)
        · rw [← he]
        · exact absurd (List.mem_map_of_mem hm) h.1
    · rw [if_neg he, ih h.2]
      exact ⟨.inr, fun hm => hm.resolve_left fun hk => he (hk ▸ rfl)⟩

/-- A name has a value if and only if the two are an entry. -/
theorem get?_eq_some_iff {r : Roster κ α} {k : κ} {a : α} :
    r.get? k = some a ↔ (k, a) ∈ r.entries :=
  valueIn_eq_some_iff r.nodup

/-- An entry is the one that was entered, or it was there before. -/
theorem mem_entries_insert {r : Roster κ α} {k : κ} {a : α} {e : κ × α}
    (h : e ∈ (r.insert k a).entries) : e = (k, a) ∨ e ∈ r.entries := by
  rw [insert] at h
  split at h
  · obtain ⟨e', he', rfl⟩ := List.mem_map.1 h
    by_cases hk : e'.1 = k
    · exact .inl (if_pos hk)
    · rw [if_neg hk]
      exact .inr he'
  · rcases List.mem_append.1 h with h | h
    · exact .inr h
    · exact .inl (List.mem_singleton.1 h)

/-- A new name with its value comes last. -/
theorem entries_insert_of_not_mem {r : Roster κ α} {k : κ} (h : k ∉ r.keys) (a : α) :
    (r.insert k a).entries = r.entries ++ [(k, a)] := by
  rw [insert, dif_neg h]

/-- New names come last, in their order. -/
theorem entries_insertAll {r : Roster κ α} {es : List (κ × α)}
    (h : (r.keys ++ es.map Prod.fst).Nodup) : (r.insertAll es).entries = r.entries ++ es := by
  induction es generalizing r with
  | nil => rw [List.append_nil]; rfl
  | cons e es ih =>
    rw [List.map_cons, List.append_cons] at h
    have hk : e.1 ∉ r.keys := by
      have := (List.nodup_append.1 (List.nodup_append.1 h).1).2.2
      exact fun hm => this e.1 hm e.1 (List.mem_singleton.2 rfl) rfl
    have hkeys : (r.insert e.1 e.2).keys = r.keys ++ [e.1] := by
      rw [keys_insert, if_neg hk]
    show ((r.insert e.1 e.2).insertAll es).entries = _
    rw [ih (hkeys ▸ h), entries_insert_of_not_mem hk, List.append_assoc]
    rfl

/-- A list without repeated names is the list of its roster. -/
theorem entries_ofList {es : List (κ × α)} (h : (es.map Prod.fst).Nodup) :
    (ofList es).entries = es :=
  entries_insertAll (by simpa [empty, keys] using h)

theorem insertAll_concat (r : Roster κ α) (es : List (κ × α)) (e : κ × α) :
    r.insertAll (es ++ [e]) = (r.insertAll es).insert e.1 e.2 := by
  rw [insertAll, List.foldl_append]
  rfl

theorem ofList_concat (es : List (κ × α)) (e : κ × α) :
    ofList (es ++ [e]) = (ofList es).insert e.1 e.2 := insertAll_concat empty es e

/-- New names come behind those of the roster, in the order in which they are first
    entered. -/
theorem keys_insertAll (r : Roster κ α) (es : List (κ × α)) :
    (r.insertAll es).keys = r.keys ++ (ofList es).keys.filter (· ∉ r.keys) := by
  induction es using List.reverseRecOn with
  | nil => exact (List.append_nil _).symm
  | append_singleton es e ih =>
    rw [insertAll_concat, ofList_concat, keys_insert, keys_insert, ih]
    by_cases hr : e.1 ∈ r.keys
    · by_cases he : e.1 ∈ (ofList es).keys <;> simp [hr, he]
    · by_cases he : e.1 ∈ (ofList es).keys <;> simp [hr, he]

/-- A name has the last value that is entered for it, or else the one it had. -/
theorem get?_insertAll (r : Roster κ α) (es : List (κ × α)) (k : κ) :
    (r.insertAll es).get? k = ((ofList es).get? k).or (r.get? k) := by
  induction es using List.reverseRecOn with
  | nil => rfl
  | append_singleton es e ih =>
    rw [insertAll_concat, ofList_concat, get?_insert, get?_insert, ih]
    split <;> rfl

/-- Rosters with the same names in the same order, and with the same values, are the
    same. -/
theorem ext_get? {r s : Roster κ α} (hk : r.keys = s.keys) (hg : ∀ k, r.get? k = s.get? k) :
    r = s := by
  have hentries (t : Roster κ α) :
      t.entries.map (fun e => (e.1, some e.2)) = t.keys.map fun k => (k, t.get? k) := by
    rw [keys, List.map_map]
    refine List.map_congr_left fun e he => ?_
    rw [Function.comp_apply, get?_eq_some_iff.2 (show (e.1, e.2) ∈ t.entries from he)]
  have hinj : Function.Injective fun e : κ × α => (e.1, some e.2) := by
    rintro ⟨k, a⟩ ⟨k', a'⟩ h
    cases h
    rfl
  refine ext (hinj.list_map ?_)
  rw [hentries, hentries, hk]
  exact List.map_congr_left fun k _ => by rw [hg]

/-- The last value that is entered for a name counts. -/
theorem insert_insert (r : Roster κ α) (k : κ) (a b : α) :
    (r.insert k a).insert k b = r.insert k b := by
  refine ext_get? ?_ fun k' => ?_
  · rw [keys_insert, keys_insert, keys_insert]
    by_cases hk : k ∈ r.keys <;> simp [hk]
  · rw [get?_insert, get?_insert, get?_insert]
    split <;> rfl

end TestGrid.Roster
