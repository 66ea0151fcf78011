import TestGrid.Proofs.Selection

/-!
# Components that are left out

A component of the rule book is *left out* if the catalog does not have it, if
it has no rules, or if no version is chosen for it from its candidates. Literals
that stand in thus help a component whose list of candidates is empty, but not
one that the catalog does not have.

As long as no rule fails, there is a selection unless a component is left out,
and the fault names all of them with their rules, in the order of the rule book
(`ofCatalog_of_settle`). What is chosen for one component does not depend on any
other.
-/

namespace TestGrid.Selection

open Fallible Rule

/-- No version of the component is selected by the rules. -/
def LeftOut (fallback : Bool) (catalog : Catalog) (component : Text) (rules : List Rule) : Prop :=
  catalog.get? component = none ∨ rules = [] ∨
    ∃ candidates, catalog.get? component = some candidates ∧
      choose fallback rules candidates = .ok []

instance (fallback : Bool) (catalog : Catalog) (component : Text) (rules : List Rule) :
    Decidable (LeftOut fallback catalog component rules) :=
  match h : catalog.get? component with
  | none => isTrue (.inl h)
  | some candidates =>
    decidable_of_iff (rules = [] ∨ choose fallback rules candidates = .ok []) (by simp [LeftOut, h])

/-- An entry of a rule book gives the rules of its component. -/
theorem rulesOf_eq {book : RuleBook} {e : Text × List Rule} (h : e ∈ book.entries) :
    book.rulesOf e.1 = e.2 := by
  rw [RuleBook.rulesOf, Roster.get?_eq_some_iff.2 (show (e.1, e.2) ∈ book.entries from h)]
  rfl

section Settle

variable {fallback : Bool} {catalog : Catalog} {book : RuleBook}
  (h : ∀ e ∈ catalog.entries, ∀ v ∈ e.2, book.rulesOf e.1 ≠ [] → Settle (book.rulesOf e.1) v)

include h

/-- If no rule fails, the choice of a component with rules is made. -/
theorem choose_of_settle {component : Text} {candidates : List Text}
    (hc : catalog.get? component = some candidates) (hr : book.rulesOf component ≠ []) :
    choose fallback (book.rulesOf component) candidates =
      .ok (choice fallback (book.rulesOf component) candidates) :=
  choose_eq_ok_iff.2 ⟨fun v hv => h _ (Roster.get?_eq_some_iff.1 hc) v hv hr, rfl⟩

/-- If no rule fails, a component has a share unless it is left out. -/
theorem leftOut_iff {e : Text × List Rule} (he : e ∈ book.entries) :
    LeftOut fallback catalog e.1 e.2 ↔
      e.1 ∉ (catalog.entries.filterMap (share fallback book)).map Prod.fst := by
  have hmem : e.1 ∈ (catalog.entries.filterMap (share fallback book)).map Prod.fst ↔
      ∃ candidates, catalog.get? e.1 = some candidates ∧ e.2 ≠ [] ∧
        choice fallback e.2 candidates ≠ [] := by
    rw [← rulesOf_eq he, List.mem_map]
    constructor
    · rintro ⟨⟨c, vs⟩, hm, rfl⟩
      obtain ⟨candidates, hc, hr, hv, rfl⟩ := mem_filterMap_share_iff.1 hm
      exact ⟨candidates, hc, hr, hv⟩
    · rintro ⟨candidates, hc, hr, hv⟩
      exact ⟨_, mem_filterMap_share_iff.2 ⟨candidates, hc, hr, hv, rfl⟩, rfl⟩
  rw [hmem, LeftOut]
  cases hc : catalog.get? e.1 with
  | none => simp
  | some candidates =>
    by_cases hr : e.2 = []
    · simp [hr]
    · have hch : choose fallback (book.rulesOf e.1) candidates = .ok _ :=
        choose_of_settle h hc (rulesOf_eq he ▸ hr)
      rw [rulesOf_eq he] at hch
      simp [hr, hch]

/-- If no rule fails, the components that are left out are named, and if there
    are none, the shares are selected. -/
theorem ofCatalog_of_settle :
    ofCatalog fallback catalog book =
      if book.entries.filter (fun e => LeftOut fallback catalog e.1 e.2) = [] then
        .ok (.ofList (catalog.entries.filterMap (share fallback book)))
      else .error (.unmatched (book.entries.filter fun e => LeftOut fallback catalog e.1 e.2)) := by
  have hleft : unmatched (.ofList (catalog.entries.filterMap (share fallback book))) book =
      book.entries.filter fun e => LeftOut fallback catalog e.1 e.2 := by
    refine List.filter_congr fun e he => ?_
    rw [Bool.eq_iff_iff, Bool.not_eq_true', Bool.eq_false_iff, Ne, Roster.contains_iff,
      decide_eq_true_eq, leftOut_iff h he, Roster.keys,
      Roster.entries_ofList (nodup_map_fst_filterMap_share fallback book catalog)]
  rw [ofCatalog, chosen_eq_ok_iff.2 ⟨h, rfl⟩]
  show (if (unmatched _ _).isEmpty then _ else _) = _
  rw [hleft]
  simp only [List.isEmpty_iff]
  rfl

/-- If no rule fails, selecting fails if and only if some component of the rule
    book is left out; the fault then names all of these with their rules, in
    order. Otherwise the components of the catalog for which there are rules are
    selected, in the order of the catalog, each with what its own rules choose
    from its own candidates, which is not nothing. -/
theorem ofCatalog_names_all_left_out :
    ((∃ left, ofCatalog fallback catalog book = .error (.unmatched left)) ↔
      ∃ e ∈ book.entries, LeftOut fallback catalog e.1 e.2) ∧
    (∀ f, ofCatalog fallback catalog book = .error f →
      f = .unmatched (book.entries.filter fun e => LeftOut fallback catalog e.1 e.2)) ∧
    ((∀ e ∈ book.entries, ¬LeftOut fallback catalog e.1 e.2) →
      ∃ selection, ofCatalog fallback catalog book = .ok selection ∧
        selection.keys = catalog.keys.filter (· ∈ book.keys) ∧
        ∀ c ∈ selection.keys, ∃ candidates versions, catalog.get? c = some candidates ∧
          selection.get? c = some versions ∧ versions ≠ [] ∧
          choose fallback (book.rulesOf c) candidates = .ok versions) := by
  have hnil : book.entries.filter (fun e => LeftOut fallback catalog e.1 e.2) = [] ↔
      ∀ e ∈ book.entries, ¬LeftOut fallback catalog e.1 e.2 := by
    simp only [List.filter_eq_nil_iff, decide_eq_true_eq]
  rw [ofCatalog_of_settle h]
  refine ⟨?_, fun f hf => ?_, fun hall => ?_⟩
  · split
    · next hn =>
      simp only [reduceCtorEq, exists_const, false_iff, not_exists, not_and]
      exact hnil.1 hn
    · next hn =>
      rw [hnil] at hn
      push Not at hn
      exact ⟨fun _ => hn, fun _ => ⟨_, rfl⟩⟩
  · split at hf
    · cases hf
    · cases hf
      rfl
  · rw [if_pos (hnil.2 hall)]
    have hs : ofCatalog fallback catalog book = _ := ofCatalog_of_settle h
    rw [if_pos (hnil.2 hall)] at hs
    refine ⟨_, rfl, keys_eq_filter hs, fun c hc => ?_⟩
    obtain ⟨versions, hv⟩ := Roster.mem_keys_iff.1 hc
    obtain ⟨candidates, hcand, hr, hne, rfl⟩ :=
      (mem_entries_iff hs).1 (Roster.get?_eq_some_iff.1 hv)
    exact ⟨candidates, _, hcand, hv, hne, choose_of_settle h hcand hr⟩

end Settle

/-- A component without candidates has its literal; one that the catalog does not
    have, one that no rule includes a candidate of and one without rules are
    named. -/
theorem left_out_named_in_order :
    let catalog : Catalog := .ofList [("mesh".toList, ["5.0".toList]), ("core".toList, [])]
    let book : RuleBook := .ofList [("auth".toList, [literal "1.0".toList false]),
      ("core".toList, [literal "2.0".toList false]), ("mesh".toList, [wildcard "4*".toList false]),
      ("none".toList, [])]
    (∀ e ∈ catalog.entries, ∀ v ∈ e.2, book.rulesOf e.1 ≠ [] → Settle (book.rulesOf e.1) v) ∧
      ofCatalog true catalog book = .error (.unmatched [("auth".toList, [literal "1.0".toList false]),
        ("mesh".toList, [wildcard "4*".toList false]), ("none".toList, [])]) := by
  intro catalog book
  have h : ∀ e ∈ catalog.entries, ∀ v ∈ e.2, book.rulesOf e.1 ≠ [] →
      Settle (book.rulesOf e.1) v :=
    List.forall_mem_cons.2 ⟨List.forall_mem_singleton.2 fun _ => ⟨_, rfl⟩,
      List.forall_mem_singleton.2 fun _ hv => absurd hv List.not_mem_nil⟩
  obtain ⟨left, hl⟩ := (ofCatalog_names_all_left_out h).1.2 ⟨_, List.mem_cons_self, .inl rfl⟩
  refine ⟨h, hl.trans ?_⟩
  rw [(ofCatalog_names_all_left_out h).2.1 _ hl]
  rfl

end TestGrid.Selection
