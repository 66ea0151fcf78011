import Mathlib.Control.Monad.Basic
import Mathlib.Data.List.Nodup
import TestGrid.Proofs.Inclusion
import TestGrid.Proofs.Roster
import TestGrid.Selection

/-!
# Selections and what the rules say

The selection of a component is made of its candidates and its rules, and of
nothing else. If its rules can be tried on each of its candidates, what is
chosen is told without them being tried (`choice`): the candidates that the
rules include, or the literals of the rules if there are none and literals may
stand in. Otherwise there is no selection at all.

* `choose_eq_ok_iff`: when a component has a choice, and which;
* `chosen_eq_ok_iff`: when all components have theirs; those with an empty one
  are left out;
* `ofCatalog_eq_ok_iff`: the selections, which leave out no component that has
  rules.
-/

namespace TestGrid

open Fallible

namespace Rule

instance (v : Text) (rule : Rule) : Decidable (rule.Wants v) := instDecidableAnd

instance (v : Text) (rule : Rule) : Decidable (rule.Bars v) := instDecidableAnd

instance (rules : List Rule) (v : Text) : Decidable (Includes rules v) := instDecidableAnd

/-- Trying the rules on the version has an outcome. -/
def Settle (rules : List Rule) (v : Text) : Prop := ∃ b, includes rules v = .ok b

/-- A version is among the literals of rules if one of them is its literal and
    no exclusion. -/
theorem mem_literals_iff {rules : List Rule} {v : Text} :
    v ∈ literals rules ↔ literal v false ∈ rules := by
  rw [literals, List.mem_filterMap]
  constructor
  · rintro ⟨rule, hr, hv⟩
    rw [literal?.eq_def] at hv
    split at hv
    · cases hv
      exact hr
    · cases hv
  · exact fun h => ⟨_, h, rfl⟩

end Rule

namespace Selection

open Rule

/-! ## One component -/

/-- The candidates that the rules include. -/
def fitting (rules : List Rule) (candidates : List Text) : List Text :=
  candidates.filter (Includes rules ·)

/-- What is chosen for a component whose rules can be tried. -/
def choice (fallback : Bool) (rules : List Rule) (candidates : List Text) : List Text :=
  if fitting rules candidates = [] ∧ fallback = true then literals rules
  else fitting rules candidates

/-- A version is a fit choice for a component: a candidate that the rules
    include, or a literal of the rules if literals may stand in and no candidate
    is included. -/
def Fit (fallback : Bool) (rules : List Rule) (candidates : List Text) (v : Text) : Prop :=
  (v ∈ candidates ∧ Includes rules v) ∨
    (fallback = true ∧ (∀ w ∈ candidates, ¬Includes rules w) ∧ literal v false ∈ rules)

/-- Candidates and literals are never both fit: if a candidate is included, only
    included candidates are; otherwise only literals are, and only if they may
    stand in. -/
theorem fit_unmixed (fallback : Bool) (rules : List Rule) (candidates : List Text) :
    (∀ v, Fit fallback rules candidates v → v ∈ candidates ∧ Includes rules v) ∨
      fallback = true ∧ (∀ w ∈ candidates, ¬Includes rules w) ∧
        ∀ v, Fit fallback rules candidates v → literal v false ∈ rules := by
  by_cases h : fallback = true ∧ ∀ w ∈ candidates, ¬Includes rules w
  · refine .inr ⟨h.1, h.2, fun v hv => ?_⟩
    rcases hv with ⟨hm, hi⟩ | ⟨_, _, hl⟩
    · exact absurd hi (h.2 v hm)
    · exact hl
  · exact .inl fun v hv => hv.elim id fun hl => absurd ⟨hl.1, hl.2.1⟩ h

theorem fitting_eq_nil_iff {rules : List Rule} {candidates : List Text} :
    fitting rules candidates = [] ↔ ∀ w ∈ candidates, ¬Includes rules w := by
  simp [fitting, List.filter_eq_nil_iff]

/-- The versions chosen are the fit ones. -/
theorem mem_choice_iff {fallback : Bool} {rules : List Rule} {candidates : List Text} {v : Text} :
    v ∈ choice fallback rules candidates ↔ Fit fallback rules candidates v := by
  have hf : v ∈ fitting rules candidates ↔ v ∈ candidates ∧ Includes rules v := by
    rw [fitting, List.mem_filter, decide_eq_true_eq]
  rw [choice, Fit, ← fitting_eq_nil_iff, ← mem_literals_iff, ← hf]
  split
  · next h => simp [h.1, h.2]
  · next h => exact ⟨.inl, fun hv => hv.elim id fun hl => absurd ⟨hl.2.1, hl.1⟩ h⟩

/-- Candidates are looked through if and only if the rules can be tried on each
    of them, and the ones they include are kept. -/
theorem included_eq_ok_iff {rules : List Rule} {candidates vs : List Text} :
    included rules candidates = .ok vs ↔
      (∀ v ∈ candidates, Settle rules v) ∧ vs = fitting rules candidates := by
  induction candidates generalizing vs with
  | nil => simp [included, fitting, eq_comm]
  | cons v candidates ih =>
    rw [included, bind_eq_ok, List.forall_mem_cons, fitting, List.filter_cons]
    constructor
    · rintro ⟨keep, hk, h⟩
      obtain ⟨rest, hr, h⟩ := bind_eq_ok.1 h
      obtain ⟨hs, rfl⟩ := ih.1 hr
      cases h
      simp only [eq_true_iff_of_includes hk, decide_eq_true_eq]
      exact ⟨⟨⟨keep, hk⟩, hs⟩, rfl⟩
    · rintro ⟨⟨⟨keep, hk⟩, hs⟩, rfl⟩
      refine ⟨keep, hk, ?_⟩
      rw [ih.2 ⟨hs, rfl⟩, ok_bind]
      simp only [eq_true_iff_of_includes hk, decide_eq_true_eq]
      rfl

/-- A component has a choice if and only if its rules can be tried on each of
    its candidates. -/
theorem choose_eq_ok_iff {fallback : Bool} {rules : List Rule} {candidates vs : List Text} :
    choose fallback rules candidates = .ok vs ↔
      (∀ v ∈ candidates, Settle rules v) ∧ vs = choice fallback rules candidates := by
  rw [choose, bind_eq_ok]
  constructor
  · rintro ⟨kept, hk, h⟩
    obtain ⟨hs, rfl⟩ := included_eq_ok_iff.1 hk
    cases h
    refine ⟨hs, ?_⟩
    simp only [choice, Bool.and_eq_true, List.isEmpty_iff]
  · rintro ⟨hs, rfl⟩
    refine ⟨_, included_eq_ok_iff.2 ⟨hs, rfl⟩, ?_⟩
    simp only [choice, Bool.and_eq_true, List.isEmpty_iff]
    rfl

/-! ## All components -/

/-- What an entry of a catalog adds to a selection: its choice, unless the
    component has no rules or the choice is empty. -/
def share (fallback : Bool) (book : RuleBook) (entry : Text × List Text) :
    Option (Text × List Text) :=
  let rules := book.rulesOf entry.1
  if rules = [] ∨ choice fallback rules entry.2 = [] then none
  else some (entry.1, choice fallback rules entry.2)

theorem share_eq_some_iff {fallback : Bool} {book : RuleBook} {entry : Text × List Text}
    {e : Text × List Text} : share fallback book entry = some e ↔
      book.rulesOf entry.1 ≠ [] ∧ e.2 ≠ [] ∧
        e = (entry.1, choice fallback (book.rulesOf entry.1) entry.2) := by
  rw [share]
  constructor
  · intro h
    split at h
    · cases h
    · next hn =>
      cases h
      rw [not_or] at hn
      exact ⟨hn.1, hn.2, rfl⟩
  · rintro ⟨hr, hc, rfl⟩
    exact if_neg (not_or.2 ⟨hr, hc⟩)

/-- All components have their choices if and only if the rules of each can be
    tried on its candidates. -/
theorem chosen_eq_ok_iff {fallback : Bool} {book : RuleBook}
    {entries out : List (Text × List Text)} :
    chosen fallback book entries = .ok out ↔
      (∀ e ∈ entries, ∀ v ∈ e.2, book.rulesOf e.1 ≠ [] → Settle (book.rulesOf e.1) v) ∧
        out = entries.filterMap (share fallback book) := by
  induction entries generalizing out with
  | nil =>
    constructor
    · rintro ⟨⟩
      exact ⟨fun _ h => absurd h List.not_mem_nil, rfl⟩
    · rintro ⟨_, rfl⟩
      rfl
  | cons e entries ih =>
    obtain ⟨component, candidates⟩ := e
    rw [chosen, List.forall_mem_cons, List.filterMap_cons]
    by_cases hr : book.rulesOf component = []
    · -- A component without rules is passed over.
      simp only [hr, List.isEmpty_nil, if_true, ih, share]
      simp
    · simp only [List.isEmpty_iff, if_neg hr]
      rw [bind_eq_ok]
      constructor
      · rintro ⟨versions, hv, h⟩
        obtain ⟨rest, hrest, h⟩ := bind_eq_ok.1 h
        obtain ⟨hs, rfl⟩ := choose_eq_ok_iff.1 hv
        obtain ⟨hss, rfl⟩ := ih.1 hrest
        cases h
        refine ⟨⟨fun v hv _ => hs v hv, hss⟩, ?_⟩
        by_cases hc : choice fallback (book.rulesOf component) candidates = []
        · simp [share, hc]
        · simp [share, hc, hr]
      · rintro ⟨⟨hs, hss⟩, rfl⟩
        refine ⟨_, choose_eq_ok_iff.2 ⟨fun v hv => hs v hv hr, rfl⟩, ?_⟩
        rw [ih.2 ⟨hss, rfl⟩, ok_bind]
        by_cases hc : choice fallback (book.rulesOf component) candidates = []
        · simp [share, hc]
        · simp [share, hc, hr]

/-- The components that have a share, in the order of the entries. -/
theorem map_fst_filterMap_share (fallback : Bool) (book : RuleBook)
    (entries : List (Text × List Text)) :
    (entries.filterMap (share fallback book)).map Prod.fst =
      (entries.filter fun e => (share fallback book e).isSome).map Prod.fst := by
  induction entries with
  | nil => rfl
  | cons e entries ih =>
    rw [List.filterMap_cons, List.filter_cons]
    cases hs : share fallback book e with
    | none => exact ih
    | some e' =>
      have he : e'.1 = e.1 := by rw [(share_eq_some_iff.1 hs).2.2]
      rw [List.map_cons, ih, he]
      rfl

/-- No component has two shares. -/
theorem nodup_map_fst_filterMap_share (fallback : Bool) (book : RuleBook) (catalog : Catalog) :
    ((catalog.entries.filterMap (share fallback book)).map Prod.fst).Nodup := by
  rw [map_fst_filterMap_share]
  exact catalog.nodup.sublist (List.filter_sublist.map Prod.fst)

/-- The shares are the choices, not empty, of the components with rules. -/
theorem mem_filterMap_share_iff {fallback : Bool} {catalog : Catalog} {book : RuleBook} {c : Text}
    {vs : List Text} : (c, vs) ∈ catalog.entries.filterMap (share fallback book) ↔
      ∃ candidates, catalog.get? c = some candidates ∧ book.rulesOf c ≠ [] ∧ vs ≠ [] ∧
        vs = choice fallback (book.rulesOf c) candidates := by
  rw [List.mem_filterMap]
  constructor
  · rintro ⟨⟨c', candidates⟩, he, hs⟩
    obtain ⟨hr, hv, heq⟩ := share_eq_some_iff.1 hs
    cases heq
    exact ⟨candidates, Roster.get?_eq_some_iff.2 he, hr, hv, rfl⟩
  · rintro ⟨candidates, hc, hr, hv, rfl⟩
    exact ⟨_, Roster.get?_eq_some_iff.1 hc, share_eq_some_iff.2 ⟨hr, hv, rfl⟩⟩

theorem unmatched_eq_nil_iff {selection : Selection} {book : RuleBook} :
    unmatched selection book = [] ↔ ∀ c ∈ book.keys, c ∈ selection.keys := by
  simp only [unmatched, List.filter_eq_nil_iff, Bool.not_eq_true', Bool.not_eq_false,
    Roster.contains_iff, Roster.keys, List.forall_mem_map]

/-- A selection is made of the shares of the components, if the rules can be
    tried and no component of the rule book is left out. -/
theorem ofCatalog_eq_ok_iff {fallback : Bool} {catalog : Catalog} {book : RuleBook}
    {selection : Selection} : ofCatalog fallback catalog book = .ok selection ↔
      (∀ e ∈ catalog.entries, ∀ v ∈ e.2, book.rulesOf e.1 ≠ [] → Settle (book.rulesOf e.1) v) ∧
        selection.entries = catalog.entries.filterMap (share fallback book) ∧
        ∀ c ∈ book.keys, c ∈ selection.keys := by
  have hn := nodup_map_fst_filterMap_share fallback book catalog
  rw [ofCatalog, bind_eq_ok]
  constructor
  · rintro ⟨out, ho, h⟩
    obtain ⟨hs, rfl⟩ := chosen_eq_ok_iff.1 (mapError_eq_ok.1 ho)
    dsimp only at h
    split at h
    · next hl =>
      cases h
      exact ⟨hs, Roster.entries_ofList hn, unmatched_eq_nil_iff.1 (List.isEmpty_iff.1 hl)⟩
    · cases h
  · rintro ⟨hs, he, hk⟩
    have : selection = .ofList (catalog.entries.filterMap (share fallback book)) :=
      Roster.ext (he.trans (Roster.entries_ofList hn).symm)
    subst this
    refine ⟨_, mapError_eq_ok.2 (chosen_eq_ok_iff.2 ⟨hs, rfl⟩), ?_⟩
    rw [if_pos (List.isEmpty_iff.2 (unmatched_eq_nil_iff.2 hk))]
    rfl

section OfCatalog

variable {fallback : Bool} {catalog : Catalog} {book : RuleBook} {selection : Selection}
  (h : ofCatalog fallback catalog book = .ok selection)

include h

/-- The entries of a selection are the choices of the components with rules. -/
theorem mem_entries_iff {c : Text} {vs : List Text} : (c, vs) ∈ selection.entries ↔
    ∃ candidates, catalog.get? c = some candidates ∧ book.rulesOf c ≠ [] ∧ vs ≠ [] ∧
      vs = choice fallback (book.rulesOf c) candidates := by
  rw [(ofCatalog_eq_ok_iff.1 h).2.1]
  exact mem_filterMap_share_iff

/-- The components of a selection are those of the catalog that the rule book
    names, in the order of the catalog. -/
theorem keys_eq_filter : selection.keys = catalog.keys.filter (· ∈ book.keys) := by
  have he := (ofCatalog_eq_ok_iff.1 h).2.1
  have hall := (ofCatalog_eq_ok_iff.1 h).2.2
  rw [Roster.keys, he, map_fst_filterMap_share,
    show catalog.keys = catalog.entries.map Prod.fst from rfl, List.filter_map]
  congr 1
  refine List.filter_congr fun e hm => ?_
  rw [Function.comp_apply, Bool.eq_iff_iff, decide_eq_true_eq]
  constructor
  · intro hs
    obtain ⟨e', hs⟩ := Option.isSome_iff_exists.1 hs
    -- A component with a share has rules, so the rule book names it.
    have hr := (share_eq_some_iff.1 hs).1
    by_contra hk
    rw [RuleBook.rulesOf, Roster.get?_eq_none.2 hk] at hr
    exact hr rfl
  · intro hk
    obtain ⟨vs, hv⟩ := Roster.mem_keys_iff.1 (hall e.1 hk)
    obtain ⟨candidates, hc, hr, hn, rfl⟩ := (mem_entries_iff h).1 (Roster.get?_eq_some_iff.1 hv)
    have heq : e.2 = candidates := by
      rw [Roster.get?_eq_some_iff.2 (show (e.1, e.2) ∈ catalog.entries from hm)] at hc
      exact Option.some_inj.1 hc
    rw [share_eq_some_iff.2 ⟨hr, heq ▸ hn, rfl⟩]
    rfl

/-- A selection has each component of the rule book once, and no other. -/
theorem keys_perm : selection.keys.Perm book.keys := by
  refine (List.perm_ext_iff_of_nodup selection.nodup book.nodup).2 fun c => ?_
  refine ⟨fun hc => ?_, (ofCatalog_eq_ok_iff.1 h).2.2 c⟩
  change c ∈ selection.keys at hc
  rw [keys_eq_filter h, List.mem_filter, decide_eq_true_eq] at hc
  exact hc.2

/-- A version is selected for a component if and only if it is a fit choice among
    the candidates of the component. -/
theorem exists_mem_entries_iff {c v : Text} (hc : c ∈ selection.keys) :
    (∃ vs, (c, vs) ∈ selection.entries ∧ v ∈ vs) ↔
      ∃ candidates, catalog.get? c = some candidates ∧
        Fit fallback (book.rulesOf c) candidates v := by
  constructor
  · rintro ⟨vs, he, hv⟩
    obtain ⟨candidates, hg, -, -, rfl⟩ := (mem_entries_iff h).1 he
    exact ⟨candidates, hg, mem_choice_iff.1 hv⟩
  · rintro ⟨candidates, hg, hv⟩
    obtain ⟨vs, hvs⟩ := Roster.mem_keys_iff.1 hc
    have he := Roster.get?_eq_some_iff.1 hvs
    obtain ⟨candidates', hg', -, -, rfl⟩ := (mem_entries_iff h).1 he
    rw [hg, Option.some_inj] at hg'
    subst hg'
    exact ⟨_, he, mem_choice_iff.2 hv⟩

end OfCatalog

end Selection

end TestGrid
