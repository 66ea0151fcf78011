import TestGrid.Proofs.Plan
import TestGrid.Proofs.RuleBook

/-!
# The order of the lines of a rule book

Texts are *reorderings* of each other if the same lines speak in them, in any
order, and no two of these name the same component; blank lines and comments may
stand anywhere (`RuleBook.Reorders`). Then both have rule books or none has one,
and the rule books have the same entries in some order
(`RuleBook.perm_of_ofText`).

A selection looks up the rules of each component of the catalog, so that their
order does not count for what is selected (`Selection.ofCatalog_of_perm`), but
for the order in which a fault names the components that are left out.
-/

namespace TestGrid

open Fallible

/-- Rosters with the same entries give the same values to names. -/
theorem Roster.get?_of_perm {κ α : Type} [DecidableEq κ] {r s : Roster κ α}
    (h : r.entries.Perm s.entries) (k : κ) : r.get? k = s.get? k :=
  Option.ext fun _ => by rw [get?_eq_some_iff, get?_eq_some_iff, h.mem_iff]

/-! ## Rule books -/

namespace RuleBook

/-- The lines of a text that speak, without their margins. -/
def spoken (text : Text) : List Text := (text.lines.filter Speaks).map Text.trim

/-- The component that a line names: what stands in front of its first equals
    sign, without the margins. -/
def componentOf? (line : Text) : Option Text := (line.cut '=').map fun p => p.1.trim

/-- The same lines speak in both texts, and no two of them name the same
    component. -/
structure Reorders (first second : Text) : Prop where
  perm : (spoken first).Perm (spoken second)
  distinct : ((spoken first).filterMap componentOf?).Nodup

instance (first second : Text) : Decidable (Reorders first second) :=
  decidable_of_iff ((spoken first).Perm (spoken second) ∧
    ((spoken first).filterMap componentOf?).Nodup) ⟨fun h => ⟨h.1, h.2⟩, fun h => ⟨h.1, h.2⟩⟩

theorem Reorders.symm {first second : Text} (h : Reorders first second) :
    Reorders second first := ⟨h.perm.symm, (h.perm.filterMap componentOf?).nodup_iff.1 h.distinct⟩

/-- A text is well-formed if the lines that speak state rules. -/
theorem wellFormed_iff {text : Text} :
    WellFormed text ↔ ∀ line ∈ spoken text, Statement.IsLine line := by
  simp only [WellFormed, spoken, List.forall_mem_map, List.mem_filter, and_imp, decide_eq_true_eq]

theorem Reorders.wellFormed {first second : Text} (h : Reorders first second)
    (hw : WellFormed first) : WellFormed second :=
  wellFormed_iff.2 fun line hl => wellFormed_iff.1 hw line (h.perm.mem_iff.2 hl)

/-- A line states rules of the component that it names. -/
theorem componentOf?_of_ofLine {line : Text} {s : Statement}
    (h : Statement.ofLine line = .ok s) : componentOf? line = some s.component := by
  obtain ⟨component, patterns, hl, hn, -, hs, -⟩ := Statement.ofLine_eq_ok_iff.1 h
  rw [componentOf?, Text.cut_eq_some_iff.2 ⟨hl, hn⟩, hs]
  rfl

/-- Lines that are read name the components that they state rules of. -/
theorem filterMap_componentOf? {lines : List Text} {ss : List Statement}
    (h : List.Forall₂ (fun l s => Statement.ofLine l = .ok s) lines ss) :
    lines.filterMap componentOf? = ss.map Statement.component := by
  induction h with
  | nil => rfl
  | cons hl _ ih => rw [List.filterMap_cons_some (componentOf?_of_ofLine hl), ih, List.map_cons]

/-- If no two lines name the same component, the rule book has an entry for each
    line, in order. -/
theorem entries_of_ofText {text : Text} {book : RuleBook} (h : ofText text = .ok book)
    (hn : ((spoken text).filterMap componentOf?).Nodup) :
    ∃ ss : List Statement, (spoken text).map Statement.ofLine = ss.map .ok ∧
      book.entries = ss.map fun s => (s.component, s.rules) := by
  obtain ⟨ss, hs, rfl⟩ := ofText_eq_ok_iff.1 h
  have hnames : (spoken text).filterMap componentOf? = ss.map Statement.component :=
    filterMap_componentOf? hs
  refine ⟨ss, ?_, ?_⟩
  · rw [← List.forall₂_eq_eq_eq, List.forall₂_map_left_iff, List.forall₂_map_right_iff]
    exact hs
  · rw [foldl_put]
    refine Roster.entries_ofList ?_
    rw [List.map_map]
    exact hnames ▸ hn

/-- The rule books of reordered lines have the same entries, in some order. -/
theorem perm_of_ofText {first second : Text} (h : Reorders first second) {book book' : RuleBook}
    (hb : ofText first = .ok book) (hb' : ofText second = .ok book') :
    book.entries.Perm book'.entries := by
  obtain ⟨ss, hs, he⟩ := entries_of_ofText hb h.distinct
  obtain ⟨ss', hs', he'⟩ := entries_of_ofText hb' h.symm.distinct
  have hperm : (ss.map (Except.ok : Statement → Except SyntaxFault Statement)).Perm
      (ss'.map .ok) := by
    rw [← hs, ← hs']
    exact h.perm.map Statement.ofLine
  rw [he, he']
  exact ((List.map_perm_map_iff fun _ _ => Except.ok.inj).1 hperm).map _

end RuleBook

/-! ## Selections -/

namespace Selection

/-- What is chosen depends on the rule book by the rules of the components. -/
theorem chosen_congr {book book' : RuleBook} (h : ∀ c, book.rulesOf c = book'.rulesOf c)
    (fallback : Bool) (entries : List (Text × List Text)) :
    chosen fallback book entries = chosen fallback book' entries := by
  induction entries with
  | nil => rfl
  | cons e entries ih => rw [chosen, chosen, h, ih]

/-- By rule books with the same entries, the same is selected, or it fails in the
    same way, unless components are left out; these are the same in some order. -/
theorem ofCatalog_of_perm {book book' : RuleBook} (h : book.entries.Perm book'.entries)
    (fallback : Bool) (catalog : Catalog) :
    ofCatalog fallback catalog book = ofCatalog fallback catalog book' ∨
      ∃ left left', left.Perm left' ∧ ofCatalog fallback catalog book = .error (.unmatched left) ∧
        ofCatalog fallback catalog book' = .error (.unmatched left') := by
  have hrules (c : Text) : book.rulesOf c = book'.rulesOf c := by
    rw [RuleBook.rulesOf, RuleBook.rulesOf, Roster.get?_of_perm h]
  rw [ofCatalog, ofCatalog, chosen_congr hrules]
  generalize (chosen fallback book' catalog.entries).mapError Fault.ofMatch = outcome
  cases outcome with
  | error f => exact .inl rfl
  | ok out =>
    have hleft : (unmatched (.ofList out) book).Perm (unmatched (.ofList out) book') := h.filter _
    rw [ok_bind, ok_bind]
    dsimp only
    rw [hleft.isEmpty_eq]
    split
    · exact .inl rfl
    · exact .inr ⟨_, _, hleft, rfl, rfl⟩

end Selection

/-! ## Plans -/

namespace Plan

/-- Outcomes with the same plan but for the order of the rule book, with the same
    components left out, with lines at fault, or with the same fault. -/
inductive Alike : Except Fault Plan → Except Fault Plan → Prop
  | made {plan plan' : Plan} (catalog : plan.catalog = plan'.catalog)
      (selection : plan.selection = plan'.selection) (grid : plan.grid = plan'.grid) :
      Alike (.ok plan) (.ok plan')
  | leftOut {left left' : List (Text × List Rule)} (h : left.Perm left') :
      Alike (.error (.unmatched left)) (.error (.unmatched left'))
  | atLines {line line' : Option Nat} {cause cause' : SyntaxFault} :
      Alike (.error (.badRule line cause)) (.error (.badRule line' cause'))
  | same (f : Fault) : Alike (.error f) (.error f)

/-- By reordered lines, alike plans are made. -/
theorem alike_of_reorders {first second : Text} (h : RuleBook.Reorders first second)
    (hf : first.Countable) (hs : second.Countable) (catalogText : Text) (fallback : Bool) :
    Alike (ofTexts catalogText first fallback) (ofTexts catalogText second fallback) := by
  rw [ofTexts, ofTexts]
  rcases exists_ok_or_error (Catalog.ofText catalogText) with ⟨catalog, hc⟩ | ⟨f, hc⟩
  · rw [hc, ok_bind, ok_bind]
    rcases exists_ok_or_error (RuleBook.ofText first) with ⟨book, hb⟩ | ⟨f, hb⟩
    · obtain ⟨book', hb'⟩ := (RuleBook.exists_ofText_iff hs).2
        (h.wellFormed ((RuleBook.exists_ofText_iff hf).1 ⟨book, hb⟩))
      rw [hb, hb', ok_bind, ok_bind]
      rcases Selection.ofCatalog_of_perm (RuleBook.perm_of_ofText h hb hb') fallback catalog with
        he | ⟨left, left', hp, he, he'⟩
      · rw [he]
        cases Selection.ofCatalog fallback catalog book' with
        | error f => exact .same f
        | ok selection =>
          rw [ok_bind, ok_bind]
          cases Grid.ofSelection selection with
          | error f => exact .same f
          | ok grid => exact .made rfl rfl rfl
      · rw [he, he']
        exact .leftOut hp
    · -- Then the other text has no rule book either.
      rcases exists_ok_or_error (RuleBook.ofText second) with ⟨book', hb'⟩ | ⟨f', hb'⟩
      · obtain ⟨book, hb₀⟩ := (RuleBook.exists_ofText_iff hf).2
          (h.symm.wellFormed ((RuleBook.exists_ofText_iff hs).1 ⟨book', hb'⟩))
        rw [hb₀] at hb
        cases hb
      · obtain ⟨_, _, rfl⟩ := RuleBook.exists_badRule_of_countable hf hb
        obtain ⟨_, _, rfl⟩ := RuleBook.exists_badRule_of_countable hs hb'
        rw [hb, hb']
        exact .atLines
  · rw [hc]
    exact .same f

/-- Let the same lines speak in two texts without runs of digits that are too long,
    in any order, and let no two of these lines name the same component. Then

    * a plan is made by both or by neither, with the same selection and the same
      grid, in the same order;
    * if components are left out by one, the same ones with the same rules are left
      out by the other, in some order;
    * if a line of one is at fault, so is one of the other;
    * every other fault is one of both. -/
theorem reordered_lines {first second : Text} (h : RuleBook.Reorders first second)
    (hf : first.Countable) (hs : second.Countable) (catalogText : Text) (fallback : Bool) :
    let made := fun ruleText => (assemble catalogText ruleText fallback).result.1
    ((∃ plan, made first = .ok plan) ↔ ∃ plan, made second = .ok plan) ∧
    (∀ plan plan', made first = .ok plan → made second = .ok plan' →
      plan.catalog = plan'.catalog ∧ plan.selection = plan'.selection ∧ plan.grid = plan'.grid ∧
        plan.grid.toText = plan'.grid.toText) ∧
    ((∃ left, made first = .error (.unmatched left)) ↔
      ∃ left, made second = .error (.unmatched left)) ∧
    (∀ left left', made first = .error (.unmatched left) → made second = .error (.unmatched left') →
      left.Perm left') ∧
    ((∃ line cause, made first = .error (.badRule line cause)) ↔
      ∃ line cause, made second = .error (.badRule line cause)) ∧
    ∀ f, (∀ left, f ≠ .unmatched left) → (∀ line cause, f ≠ .badRule line cause) →
      (made first = .error f ↔ made second = .error f) := by
  intro made
  have halike : Alike (made first) (made second) := by
    simp only [made, assemble_result]
    exact alike_of_reorders h hf hs catalogText fallback
  generalize made first = outcome at halike ⊢
  generalize made second = outcome' at halike ⊢
  cases halike with
  | @made plan plan' hc hsel hg =>
    refine ⟨iff_of_true ⟨_, rfl⟩ ⟨_, rfl⟩, ?_, by simp, by simp, by simp, by simp⟩
    rintro _ _ ⟨⟩ ⟨⟩
    exact ⟨hc, hsel, hg, hg ▸ rfl⟩
  | @leftOut left left' hp =>
    refine ⟨by simp, by simp, iff_of_true ⟨_, rfl⟩ ⟨_, rfl⟩, ?_, by simp, fun f hl _ => ?_⟩
    · rintro _ _ ⟨⟩ ⟨⟩
      exact hp
    · refine iff_of_false ?_ ?_ <;> rintro ⟨⟩ <;> exact hl _ rfl
  | atLines =>
    refine ⟨by simp, by simp, by simp, by simp, iff_of_true ⟨_, _, rfl⟩ ⟨_, _, rfl⟩,
      fun f _ hb => ?_⟩
    refine iff_of_false ?_ ?_ <;> rintro ⟨⟩ <;> exact hb _ _ rfl
  | same f =>
    refine ⟨.rfl, by simp, .rfl, ?_, .rfl, fun _ _ _ => .rfl⟩
    rintro _ _ ⟨⟩ ⟨⟩
    exact .rfl

/-- Two components are left out, which are named in the order of the lines. -/
theorem left_out_of_reordered_lines :
    RuleBook.Reorders "a=9\n# note\nb=!2\nc=3".toList " c=3\nb=!2\n\na=9 \n".toList ∧
      ∃ left left',
        (assemble "c:3;b:2".toList "a=9\n# note\nb=!2\nc=3".toList false).result.1 =
          .error (.unmatched left) ∧
        (assemble "c:3;b:2".toList " c=3\nb=!2\n\na=9 \n".toList false).result.1 =
          .error (.unmatched left') ∧
        left.map Prod.fst = [['a'], ['b']] ∧ left.Perm left' := by
  have h : RuleBook.Reorders "a=9\n# note\nb=!2\nc=3".toList " c=3\nb=!2\n\na=9 \n".toList := by
    decide
  have hall := reordered_lines h (Text.countable_of_length_le (by decide))
    (Text.countable_of_length_le (by decide)) "c:3;b:2".toList false
  obtain ⟨left, hl, hnames⟩ : ∃ left,
      (assemble "c:3;b:2".toList "a=9\n# note\nb=!2\nc=3".toList false).result.1 =
        .error (.unmatched left) ∧ left.map Prod.fst = [['a'], ['b']] := ⟨_, rfl, rfl⟩
  obtain ⟨left', hl'⟩ := hall.2.2.1.1 ⟨left, hl⟩
  exact ⟨h, left, left', hl, hl', hnames, hall.2.2.2.1 _ _ hl hl'⟩

end Plan

end TestGrid
