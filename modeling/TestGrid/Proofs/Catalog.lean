import Mathlib.Data.List.Induction
import TestGrid.Catalog
import TestGrid.Proofs.Fallible
import TestGrid.Proofs.Pieces
import TestGrid.Proofs.Roster

/-!
# The texts of catalogs

A text is *well-formed* as a catalog if all of its entries but the blank ones
have a component in front of a colon. These texts are those that have a catalog
(`Catalog.exists_ofText_iff`), which

* names its components in the order in which the entries of its text first name
  them (`Catalog.keys_ofText`);
* gives them the versions that the entries list for them, each as often as it is
  listed (`Catalog.getD_get?_ofText`);
* has no version that does not stand in an entry of the text
  (`Catalog.exists_entry_of_mem_ofText`).
-/

namespace TestGrid.Catalog

open Fallible

/-- The component that an entry names, unless it is blank. -/
def componentOf? (entry : Text) : Option Text :=
  if entry.trim.isEmpty then none else (readEntry entry).toOption.map Prod.fst

/-- An entry that names a component adds it at the end, unless it is there; a
    blank entry adds nothing. -/
theorem keys_enter {before after : Catalog} {entry : Text} (h : enter before entry = .ok after) :
    after.keys = before.keys ++ (componentOf? entry).toList.filter (· ∉ before.keys) := by
  rw [enter] at h
  split at h
  · next hb =>
    cases h
    rw [componentOf?, if_pos hb]
    exact (List.append_nil _).symm
  · next hb =>
    obtain ⟨⟨component, versions⟩, hr, h⟩ := bind_eq_ok.1 h
    cases h
    have hc : componentOf? entry = some component := by
      rw [componentOf?, if_neg hb, hr]
      rfl
    show (before.add component versions).keys = _
    rw [add, Roster.alter, Roster.keys_insert, hc]
    by_cases hm : component ∈ before.keys
    · simp [hm]
    · simp [hm]

/-- A name at the end is kept if it does not stand before. -/
theorem eraseDups_concat (names : List Text) (name : Text) :
    (names ++ [name]).eraseDups = names.eraseDups ++ [name].filter (· ∉ names.eraseDups) := by
  rw [List.eraseDups_append]
  by_cases hm : name ∈ names
  · rw [List.filter_cons_of_neg (by simpa using hm)]
    simp [List.removeAll, hm]
  · rw [List.filter_cons_of_pos (by simpa using hm)]
    simp [List.removeAll, hm, List.eraseDups_cons]

/-- The components stand in the order in which the text first names them. -/
theorem keys_ofText {text : Text} {catalog : Catalog} (h : ofText text = .ok catalog) :
    catalog.keys = ((text.pieces separates).filterMap componentOf?).eraseDups := by
  rw [ofText] at h
  generalize text.pieces separates = entries at h ⊢
  -- The induction is on the entries read so far; the last one comes behind the others.
  induction entries using List.reverseRecOn generalizing catalog with
  | nil =>
    cases h
    rfl
  | append_singleton entries entry ih =>
    rw [List.foldlM_append] at h
    obtain ⟨before, hb, h⟩ := bind_eq_ok.1 h
    rw [List.foldlM_cons] at h
    obtain ⟨after, he, h⟩ := bind_eq_ok.1 h
    cases h
    rw [keys_enter he, ih hb, List.filterMap_append]
    cases hc : componentOf? entry with
    | none =>
      rw [List.filterMap_cons_none hc, List.filterMap_nil, List.append_nil]
      exact List.append_nil _
    | some component =>
      rw [List.filterMap_cons_some hc, List.filterMap_nil, eraseDups_concat]
      rfl

/-- A blank text gives no component candidates. -/
theorem get?_eq_none_of_blank {text : Text} {catalog : Catalog} (h : ofText text = .ok catalog)
    (hb : text.trim = []) (c : Text) : catalog.get? c = none := by
  have hn : (text.pieces separates).filterMap componentOf? = [] := by
    rw [List.filterMap_eq_nil_iff]
    intro entry he
    rw [componentOf?, Text.trim_of_mem_pieces hb he]
    rfl
  rw [Roster.get?_eq_none, keys_ofText h, hn]
  exact List.not_mem_nil

/-! ## The entries -/

/-- An entry with a component in front of its first colon. -/
def IsEntry (entry : Text) : Prop :=
  ∃ component versions, entry = component ++ ':' :: versions ∧ ':' ∉ component ∧
    component.trim ≠ []

/-- A text of a catalog: every entry that is not blank has a component. -/
def WellFormed (text : Text) : Prop :=
  ∀ entry ∈ text.pieces separates, entry.trim ≠ [] → IsEntry entry

/-- What an entry says: versions of a component, or nothing if it is blank. -/
def said (entry : Text) : Except Fault (Option (Text × List Text)) :=
  if entry.trim.isEmpty then .ok none else (readEntry entry).map some

/-- A catalog with what an entry says. -/
def put (catalog : Catalog) : Option (Text × List Text) → Catalog
  | none => catalog
  | some (component, versions) => catalog.add component versions

/-- To read a catalog is to read all of its entries and to put together what they
    say. -/
theorem ofText_eq (text : Text) :
    ofText text = ((text.pieces separates).mapM said).map fun parts => parts.foldl put ∅ := by
  refine foldlM_eq_map_mapM (fun catalog entry => ?_) _ _
  rw [enter, said]
  split
  · rfl
  · cases readEntry entry <;> rfl

theorem exists_readEntry_iff {entry : Text} :
    (∃ e, readEntry entry = .ok e) ↔ IsEntry entry := by
  rw [readEntry]
  split
  · next hc =>
    refine ⟨fun ⟨_, h⟩ => (nomatch h), ?_⟩
    rintro ⟨component, versions, rfl, -, -⟩
    exact absurd (List.mem_append_right _ List.mem_cons_self) (Text.cut_eq_none_iff.1 hc)
  · next component versions hc =>
    have hentry : IsEntry entry ↔ component.trim ≠ [] := Text.exists_splitting_iff hc
    rw [hentry, Ne, ← List.isEmpty_iff]
    dsimp only
    split
    · next hb => exact ⟨fun ⟨_, h⟩ => (nomatch h), fun h => absurd hb h⟩
    · next hb => exact ⟨fun _ => hb, fun _ => ⟨_, rfl⟩⟩

/-- An entry at fault is named without its blank margins. -/
theorem readEntry_eq_error {entry : Text} {f : Fault} (h : readEntry entry = .error f) :
    f = .badEntry entry.trim := by
  rw [readEntry] at h
  split at h
  · cases h
    rfl
  · dsimp only at h
    split at h
    · cases h
      rfl
    · cases h

theorem exists_said_iff {entry : Text} :
    (∃ o, said entry = .ok o) ↔ (entry.trim ≠ [] → IsEntry entry) := by
  rw [said, Ne, ← List.isEmpty_iff]
  split
  · next hb => exact ⟨fun _ hn => absurd hb hn, fun _ => ⟨none, rfl⟩⟩
  · next hb =>
    simp only [map_eq_ok]
    rw [← exists_readEntry_iff]
    constructor
    · rintro ⟨o, e, he, -⟩ -
      exact ⟨e, he⟩
    · intro h
      obtain ⟨e, he⟩ := h hb
      exact ⟨_, e, he, rfl⟩

/-- A text has a catalog if and only if it is well-formed. -/
theorem exists_ofText_iff {text : Text} :
    (∃ catalog, ofText text = .ok catalog) ↔ WellFormed text := by
  rw [WellFormed, ← forall₂_congr fun entry _ => exists_said_iff, ← exists_mapM_eq_ok, ofText_eq]
  simp [map_eq_ok]

/-- A text without a catalog has an entry at fault. -/
theorem ofText_eq_error {text : Text} {f : Fault} (h : ofText text = .error f) :
    ∃ entry, f = .badEntry entry := by
  rw [ofText_eq, map_eq_error, mapM_eq_error] at h
  obtain ⟨_, entry, _, -, -, h⟩ := h
  rw [said] at h
  split at h
  · cases h
  · exact ⟨_, readEntry_eq_error (map_eq_error.1 h)⟩

/-- A blank entry has no component. -/
theorem not_isEntry_of_blank {entry : Text} (h : entry.trim = []) : ¬IsEntry entry := by
  rintro ⟨component, versions, rfl, -, hc⟩
  refine hc (Text.trim_eq_nil_iff.2 fun c hm => ?_)
  exact Text.trim_eq_nil_iff.1 h c (List.mem_append_left _ hm)

/-! ## The versions -/

/-- The versions that an entry lists for a component. -/
def listedIn (component entry : Text) : List Text :=
  match readEntry entry with
  | .ok (c, versions) => if c = component then versions else []
  | .error _ => []

/-- The versions that a text lists for a component, entry by entry, each as often
    as it is listed. -/
def listed (text component : Text) : List Text :=
  (text.pieces separates).flatMap (listedIn component)

/-- An entry adds the versions that it lists for a component. -/
theorem getD_get?_enter {before after : Catalog} {entry : Text} (h : enter before entry = .ok after)
    (c : Text) : (after.get? c).getD [] = (before.get? c).getD [] ++ listedIn c entry := by
  rw [enter] at h
  split at h
  · next hb =>
    cases h
    have hn : ¬IsEntry entry := not_isEntry_of_blank (List.isEmpty_iff.1 hb)
    cases hr : readEntry entry with
    | ok e => exact absurd (exists_readEntry_iff.1 ⟨e, hr⟩) hn
    | error f => rw [listedIn, hr, List.append_nil]
  · obtain ⟨⟨component, versions⟩, hr, h⟩ := bind_eq_ok.1 h
    cases h
    show ((before.add component versions).get? c).getD [] = _
    rw [add, Roster.alter, Roster.get?_insert, listedIn, hr]
    by_cases hc : component = c
    · subst hc
      simp
    · simp [hc, Ne.symm hc]

/-- A component has the versions that the text lists for it. -/
theorem getD_get?_ofText {text : Text} {catalog : Catalog} (h : ofText text = .ok catalog)
    (c : Text) : (catalog.get? c).getD [] = listed text c := by
  rw [ofText] at h
  rw [listed]
  generalize text.pieces separates = entries at h ⊢
  induction entries using List.reverseRecOn generalizing catalog with
  | nil =>
    cases h
    rfl
  | append_singleton entries entry ih =>
    rw [List.foldlM_append] at h
    obtain ⟨before, hb, h⟩ := bind_eq_ok.1 h
    rw [List.foldlM_cons] at h
    obtain ⟨after, he, h⟩ := bind_eq_ok.1 h
    cases h
    rw [getD_get?_enter he, ih hb, List.flatMap_append, List.flatMap_singleton]

/-- A version in an entry is a part of it without its margins, and not a blank
    part. -/
theorem exists_trim_of_mem_readEntry {entry v : Text} {e : Text × List Text}
    (h : readEntry entry = .ok e) (hv : v ∈ e.2) :
    v ≠ [] ∧ ∃ p : Text, p <:+: entry ∧ p.trim = v := by
  rw [readEntry] at h
  split at h
  · cases h
  · next component versions hc =>
    dsimp only at h
    split at h
    · cases h
    · cases h
      obtain ⟨hv, hn⟩ := List.mem_filter.1 hv
      obtain ⟨p, hp, rfl⟩ := List.mem_map.1 hv
      refine ⟨by simpa using hn, p, ?_, rfl⟩
      exact (Text.infix_of_mem_pieces hp).trans (Text.infix_of_cut hc)

/-- The versions in a catalog are those of entries that are read. -/
theorem exists_readEntry_of_mem_ofText {text : Text} {catalog : Catalog}
    (h : ofText text = .ok catalog) {e : Text × List Text} {v : Text} (he : e ∈ catalog.entries)
    (hv : v ∈ e.2) : ∃ entry ∈ text.pieces separates, ∃ vs, readEntry entry = .ok (e.1, vs) ∧
      v ∈ vs := by
  have hget := getD_get?_ofText h e.1
  rw [Roster.get?_eq_some_iff.2 (show (e.1, e.2) ∈ catalog.entries from he)] at hget
  obtain ⟨entry, hm, hl⟩ := List.mem_flatMap.1 (show v ∈ listed text e.1 from hget ▸ hv)
  refine ⟨entry, hm, ?_⟩
  rw [listedIn.eq_def] at hl
  split at hl
  · next c versions hr =>
    split at hl
    · next hc => exact ⟨versions, hc ▸ hr, hl⟩
    · exact absurd hl List.not_mem_nil
  · exact absurd hl List.not_mem_nil

/-- The versions in a catalog stand in the entries of its text. -/
theorem exists_entry_of_mem_ofText {text : Text} {catalog : Catalog} (h : ofText text = .ok catalog)
    {e : Text × List Text} {v : Text} (he : e ∈ catalog.entries) (hv : v ∈ e.2) :
    ∃ entry ∈ text.pieces separates, v <:+: entry := by
  obtain ⟨entry, hm, vs, hr, hv⟩ := exists_readEntry_of_mem_ofText h he hv
  obtain ⟨-, p, hp, rfl⟩ := exists_trim_of_mem_readEntry hr hv
  exact ⟨entry, hm, (Text.trim_infix p).trans hp⟩

/-- The versions in a catalog are not empty and have no margins. -/
theorem trimmed_of_mem_ofText {text : Text} {catalog : Catalog} (h : ofText text = .ok catalog)
    {e : Text × List Text} {v : Text} (he : e ∈ catalog.entries) (hv : v ∈ e.2) :
    v ≠ [] ∧ v.Trimmed := by
  obtain ⟨entry, -, vs, hr, hv⟩ := exists_readEntry_of_mem_ofText h he hv
  obtain ⟨hn, p, -, rfl⟩ := exists_trim_of_mem_readEntry hr hv
  exact ⟨hn, Text.trimmed_trim p⟩

/-- The versions in a catalog stand in its text. -/
theorem infix_of_mem_ofText {text : Text} {catalog : Catalog} (h : ofText text = .ok catalog)
    {e : Text × List Text} {v : Text} (he : e ∈ catalog.entries) (hv : v ∈ e.2) : v <:+: text := by
  obtain ⟨entry, hm, hi⟩ := exists_entry_of_mem_ofText h he hv
  exact hi.trans (Text.infix_of_mem_pieces hm)

end TestGrid.Catalog
