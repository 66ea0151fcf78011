import TestGrid.Proofs.Catalog
import TestGrid.Proofs.Joined

/-!
# Catalogs as they are written

What stands in a catalog that was read is *legible* (`Catalog.legible_of_ofText`):
components and versions are not empty and have no margins, there is no colon in a
component and no comma in a version, and nothing in them parts entries. A legible
entry is read from its text (`Catalog.readEntry_entryText`), with any colons and
blanks inside its versions and with as many repetitions as it has. So a catalog that
was read may be written, with one entry for each component, and read again
(`Catalog.ofText_toText_of_read`).
-/

namespace TestGrid.Catalog

open Fallible

/-- A version that can be written among others in an entry. -/
structure LegibleVersion (v : Text) : Prop where
  ne_nil : v ≠ []
  trimmed : v.Trimmed
  noComma : ',' ∉ v
  noEnd : ∀ c ∈ v, separates c = false

/-- A component with versions of which an entry can be written. -/
structure Legible (e : Text × List Text) : Prop where
  ne_nil : e.1 ≠ []
  trimmed : e.1.Trimmed
  noColon : ':' ∉ e.1
  noEnd : ∀ c ∈ e.1, separates c = false
  versions : ∀ v ∈ e.2, LegibleVersion v

/-- The versions behind the colon of an entry: what is between commas, without
    margins, where something is. -/
def versionsOf (t : Text) : List Text :=
  ((t.pieces (· = ',')).map Text.trim).filter (!·.isEmpty)

/-- An entry that is read is cut at its first colon. -/
theorem readEntry_eq_ok_iff {entry : Text} {e : Text × List Text} :
    readEntry entry = .ok e ↔ ∃ component versions, entry = component ++ ':' :: versions ∧
      ':' ∉ component ∧ component.trim ≠ [] ∧
      e = (component.trim, versionsOf versions) := by
  rw [readEntry]
  constructor
  · intro h
    split at h
    · cases h
    · next component versions hc =>
      obtain ⟨rfl, hn⟩ := Text.cut_eq_some_iff.1 hc
      dsimp only at h
      split at h
      · cases h
      · next he =>
        cases h
        exact ⟨component, versions, rfl, hn, mt List.isEmpty_iff.2 he, rfl⟩
  · rintro ⟨component, versions, rfl, hn, he, rfl⟩
    rw [Text.cut_eq_some_iff.2 ⟨rfl, hn⟩]
    exact if_neg (mt List.isEmpty_iff.1 he)

/-- What is read from an entry is legible, if the entry is not parted. -/
theorem legible_of_readEntry {entry : Text} {e : Text × List Text}
    (hs : ∀ c ∈ entry, separates c = false) (h : readEntry entry = .ok e) : Legible e := by
  obtain ⟨component, versions, rfl, hn, he, rfl⟩ := readEntry_eq_ok_iff.1 h
  have hpart : component.trim ⊆ component := (Text.trim_infix component).subset
  exact {
    ne_nil := he
    trimmed := Text.trimmed_trim component
    noColon := fun hm => hn (hpart hm)
    noEnd := fun c hc => hs c (List.mem_append_left _ (hpart hc))
    versions := fun v hv => by
      obtain ⟨hv, hne⟩ := List.mem_filter.1 hv
      obtain ⟨p, hp, rfl⟩ := List.mem_map.1 hv
      have hpiece : p.trim ⊆ p := (Text.trim_infix p).subset
      exact {
        ne_nil := by simpa using hne
        trimmed := Text.trimmed_trim p
        noComma := fun hm => absurd (Text.sep_of_mem_pieces hp (hpiece hm)) (by decide)
        noEnd := fun c hc =>
          have hmem : c ∈ versions := Text.mem_of_mem_pieces hp (hpiece hc)
          hs c (List.mem_append_right _ (List.mem_cons_of_mem _ hmem)) } }

/-- A component of a catalog is named in an entry that is read. -/
theorem exists_readEntry_of_mem_keys {text : Text} {catalog : Catalog}
    (h : ofText text = .ok catalog) {c : Text} (hc : c ∈ catalog.keys) :
    ∃ entry ∈ text.pieces separates, ∃ vs, readEntry entry = .ok (c, vs) := by
  rw [keys_ofText h, List.mem_eraseDups, List.mem_filterMap] at hc
  obtain ⟨entry, hm, hc⟩ := hc
  refine ⟨entry, hm, ?_⟩
  rw [componentOf?] at hc
  split at hc
  · cases hc
  · cases hr : readEntry entry with
    | error f =>
      rw [hr] at hc
      cases hc
    | ok e =>
      rw [hr] at hc
      cases hc
      exact ⟨e.2, rfl⟩

/-- The entries of a catalog that was read are legible, also those of components
    without versions. -/
theorem legible_of_ofText {text : Text} {catalog : Catalog} (h : ofText text = .ok catalog) :
    ∀ e ∈ catalog.entries, Legible e := by
  intro e he
  have hread {entry : Text} {e' : Text × List Text} (hm : entry ∈ text.pieces separates)
      (hr : readEntry entry = .ok e') : Legible e' :=
    legible_of_readEntry (fun c hc => Text.sep_of_mem_pieces hm hc) hr
  -- The component is named in one entry, and its versions may be listed in others.
  obtain ⟨entry, hm, vs, hr⟩ := exists_readEntry_of_mem_keys h (List.mem_map_of_mem he)
  have hnamed := hread hm hr
  refine ⟨hnamed.ne_nil, hnamed.trimmed, hnamed.noColon, hnamed.noEnd, fun v hv => ?_⟩
  obtain ⟨entry, hm, vs, hr, hv⟩ := exists_readEntry_of_mem_ofText h he hv
  exact (hread hm hr).versions v hv

/-- Versions are the parts between the commas that they are joined with. -/
theorem versionsOf_joined {versions : List Text} (h : ∀ v ∈ versions, LegibleVersion v) :
    versionsOf (Text.joined [','] versions) = versions := by
  cases versions with
  | nil => rfl
  | cons v vs =>
    have hpieces : (Text.joined [','] (v :: vs)).pieces (· = ',') = v :: vs :=
      Text.pieces_joined (by decide) (List.cons_ne_nil v vs)
        fun u hu x hx => decide_eq_false fun he : x = ',' => (h u hu).noComma (he ▸ hx)
    have htrim : (v :: vs).map Text.trim = v :: vs :=
      (List.map_congr_left fun u hu => (h u hu).trimmed.trim_eq).trans (List.map_id _)
    rw [versionsOf, hpieces, htrim, List.filter_eq_self]
    exact fun u hu => by simpa using (h u hu).ne_nil

/-- A legible entry is read from its text. -/
theorem readEntry_entryText {e : Text × List Text} (h : Legible e) :
    readEntry (entryText e.1 e.2) = .ok e := by
  have htrim : e.1.trim = e.1 := h.trimmed.trim_eq
  refine readEntry_eq_ok_iff.2 ⟨e.1, _, rfl, h.noColon, htrim.symm ▸ h.ne_nil, ?_⟩
  rw [htrim, versionsOf_joined h.versions]

/-- The text of a legible entry is not blank, so it says what it is read to. -/
theorem said_entryText {e : Text × List Text} (h : Legible e) :
    said (entryText e.1 e.2) = .ok (some e) := by
  have hentry : IsEntry (entryText e.1 e.2) := exists_readEntry_iff.1 ⟨e, readEntry_entryText h⟩
  have hb : (entryText e.1 e.2).trim ≠ [] := fun hb => not_isEntry_of_blank hb hentry
  rw [said, if_neg (mt List.isEmpty_iff.1 hb), readEntry_entryText h]
  rfl

/-- The text of a legible entry is not parted. -/
theorem separates_of_mem_entryText {e : Text × List Text} (h : Legible e) {c : Char}
    (hc : c ∈ entryText e.1 e.2) : separates c = false := by
  rcases List.mem_append.1 hc with hc | hc
  · exact h.noEnd c hc
  · rcases List.mem_cons.1 hc with rfl | hc
    · rfl
    · rcases Text.mem_joined hc with hc | ⟨v, hv, hc⟩
      · rw [List.mem_singleton.1 hc]
        rfl
      · exact (h.versions v hv).noEnd c hc

/-- Entries of new components are put into a catalog as they are. -/
theorem foldl_put_of_nodup {catalog : Catalog} {es : List (Text × List Text)}
    (h : (catalog.keys ++ es.map Prod.fst).Nodup) :
    (es.map some).foldl put catalog = catalog.insertAll es := by
  induction es generalizing catalog with
  | nil => rfl
  | cons e es ih =>
    rw [List.map_cons, List.append_cons] at h
    have hk : e.1 ∉ catalog.keys := fun hm =>
      (List.nodup_append.1 (List.nodup_append.1 h).1).2.2 _ hm _ (List.mem_singleton.2 rfl) rfl
    have hput : put catalog (some e) = catalog.insert e.1 e.2 := by
      show catalog.insert e.1 ((catalog.get? e.1).getD [] ++ e.2) = _
      rw [Roster.get?_eq_none.2 hk]
      rfl
    have hkeys : (catalog.insert e.1 e.2).keys = catalog.keys ++ [e.1] := by
      rw [Roster.keys_insert, if_neg hk]
    show (es.map some).foldl put (put catalog (some e)) = _
    rw [hput, ih (hkeys ▸ h)]
    rfl

/-- A catalog that was read is read again from the text that is written for it. -/
theorem ofText_toText_of_read {text : Text} {catalog : Catalog} (h : ofText text = .ok catalog) :
    ofText catalog.toText = .ok catalog := by
  have hl := legible_of_ofText h
  have hput : (catalog.entries.map some).foldl put ∅ = catalog := by
    have hnodup : ((∅ : Catalog).keys ++ catalog.entries.map Prod.fst).Nodup := catalog.nodup
    rw [foldl_put_of_nodup hnodup]
    exact Roster.ext (Roster.entries_ofList catalog.nodup)
  by_cases hn : catalog.entries = []
  · -- Nothing is written for no component.
    obtain rfl : catalog = ∅ := Roster.ext hn
    rfl
  · have hpieces : catalog.toText.pieces separates =
        catalog.entries.map fun e => entryText e.1 e.2 := by
      refine Text.pieces_joined rfl (mt List.map_eq_nil_iff.1 hn) (List.forall_mem_map.2 ?_)
      exact fun e he c hc => separates_of_mem_entryText (hl e he) hc
    have hsaid : (catalog.entries.map fun e => entryText e.1 e.2).mapM said =
        .ok (catalog.entries.map some) := by
      rw [mapM_eq_ok, List.forall₂_map_left_iff, List.forall₂_map_right_iff]
      exact List.forall₂_same.2 fun e he => said_entryText (hl e he)
    rw [ofText_eq, hpieces, hsaid]
    exact congrArg Except.ok hput

/-- Blanks and empty entries are gone from what is written, and two entries of a
    component are written as one. Repeated versions stay, and so do colons and blanks
    within versions and a component without versions. -/
theorem written_catalog_read_again :
    ∃ catalog, ofText " b : 1.0, ,a:b \n;c d:;\tb:2 x,1.0,\u00a0;".toList = .ok catalog ∧
      catalog.entries = [(['b'], ["1.0".toList, "a:b".toList, "2 x".toList, "1.0".toList]),
        ("c d".toList, [])] ∧
      catalog.toText = "b:1.0,a:b,2 x,1.0;c d:".toList ∧
      ofText catalog.toText = .ok catalog := by
  obtain ⟨catalog, h, he, ht⟩ : ∃ catalog,
      ofText " b : 1.0, ,a:b \n;c d:;\tb:2 x,1.0,\u00a0;".toList = .ok catalog ∧
      catalog.entries = [(['b'], ["1.0".toList, "a:b".toList, "2 x".toList, "1.0".toList]),
        ("c d".toList, [])] ∧
      catalog.toText = "b:1.0,a:b,2 x,1.0;c d:".toList := ⟨_, rfl, rfl, rfl⟩
  exact ⟨catalog, h, he, ht, ofText_toText_of_read h⟩

end TestGrid.Catalog
