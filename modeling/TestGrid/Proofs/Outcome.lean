import TestGrid.Proofs.Plan
import TestGrid.Proofs.RuleBook
import TestGrid.Proofs.Trials

/-!
# The outcome of making a plan

Making a plan ends at the first of its four stages that fails. Which one this
is, and with what kind of fault it ends, is known from the texts
(`Plan.ends_by_stage`):

* the first stage fails if the text of the catalog is not well-formed;
* the second one fails if the text of the rule book is not;
* the third one fails as selecting from what was read does;
* the fourth one fails if there is nothing to select for, that is, if no line of
  the rule book speaks: no component that is selected is without versions.

This supposes that no run of digits in the texts is too long for a number. Such
a run is the only reason for a fault without a category
(`Plan.category_of_ofTexts`).
-/

namespace TestGrid

open Fallible Version

/-! ## The faults of a selection -/

namespace Selection

variable {catalogText ruleText : Text} {catalog : Catalog} {book : RuleBook} {fallback : Bool}
  (hc : Catalog.ofText catalogText = .ok catalog) (hb : RuleBook.ofText ruleText = .ok book)

include hc hb

/-- A trial that is not settled is one of a version without a key. -/
theorem exists_key_of_mem_trials {t : List Rule × Text} (ht : t ∈ trials book catalog.entries)
    {m : MatchFault} (hm : Rule.includes t.1 t.2 = .error m) :
    t.2 <:+: catalogText ∧
      ∃ cause, m = .version cause ∧ Key.ofText (numericPart t.2) = .error cause := by
  obtain ⟨e, he, -, hrules, hv⟩ := mem_trials_iff.1 ht
  obtain ⟨before, rule, behind, hsplit, -, hcovers⟩ := Rule.includes_eq_error_iff.1 hm
  have hrule : rule ∈ book.rulesOf e.1 :=
    hrules ▸ hsplit ▸ List.mem_append_right _ List.mem_cons_self
  have hentry := RuleBook.mem_entries_rulesOf (List.ne_nil_of_mem hrule)
  exact ⟨Catalog.infix_of_mem_ofText hc he hv,
    Rule.exists_key_of_covers hcovers (RuleBook.ne_unknown_of_mem hb hentry hrule)⟩

/-- A selection fails for a version without a key, for components that are left
    out, or for a number that is too long. -/
theorem category_of_ofCatalog {f : Fault} (h : ofCatalog fallback catalog book = .error f) :
    (f.category? = some .version ∨ f.category? = some .unmatched) ∨
      ∃ n, f = .version (.tooLong n) ∧ digitLimit < n ∧ catalogText.HasRun n := by
  rcases ofCatalog_eq_error_iff.1 h with ⟨before, t, behind, m, ht, -, hm, rfl⟩ | ⟨_, -, -, rfl⟩
  · have ht : t ∈ trials book catalog.entries :=
      ht ▸ List.mem_append_right _ List.mem_cons_self
    obtain ⟨hi, cause, rfl, hk⟩ := exists_key_of_mem_trials hc hb ht hm
    cases cause with
    | notNumeric segment version => exact .inl (.inl rfl)
    | tooLong n =>
      obtain ⟨hn, hr⟩ := Key.hasRun_of_tooLong hk
      exact .inr ⟨n, rfl, hn, hr.mono ((numericPart_isPrefix t.2).isInfix.trans hi)⟩
  · exact .inl (.inr rfl)

end Selection

/-- No component of a selection is without versions. -/
theorem Selection.ne_nil_of_mem {fallback : Bool} {catalog : Catalog} {book : RuleBook}
    {selection : Selection} (h : ofCatalog fallback catalog book = .ok selection)
    {e : Text × List Text} (he : e ∈ selection.entries) : e.2 ≠ [] := by
  obtain ⟨candidates, -, -, hn, -⟩ := (mem_entries_iff h).1 (show (e.1, e.2) ∈ _ from he)
  exact hn

/-- What is selected has a grid, unless the rule book is empty. -/
theorem Grid.ofSelection_of_ofCatalog {fallback : Bool} {catalog : Catalog} {book : RuleBook}
    {selection : Selection} (h : Selection.ofCatalog fallback catalog book = .ok selection) :
    ofSelection selection =
      if book.entries = [] then .error .emptyGrid else .ok (spread selection.entries) := by
  have hn : selection.entries = [] ↔ book.entries = [] := by
    have hl := (Selection.keys_perm h).length_eq
    rw [Roster.keys, Roster.keys, List.length_map, List.length_map] at hl
    rw [← List.length_eq_zero_iff, ← List.length_eq_zero_iff, hl]
  split
  · next he => rw [ofSelection, Roster.isEmpty, hn.2 he]; rfl
  · next he =>
    exact ofSelection_eq_ok_iff.2
      ⟨⟨fun hs => he (hn.1 hs), fun e hm => Selection.ne_nil_of_mem h hm⟩, rfl⟩

/-! ## Faults without a category -/

/-- A catalog of one component with one candidate, which is a number. -/
theorem Catalog.ofText_of_digits {v : Text} (hd : ∀ c ∈ v, c.isDigit = true) (hne : v ≠ []) :
    ofText ('a' :: ':' :: v) = .ok (.ofList [(['a'], [v])]) := by
  have hother {d : Char} (h : d.isDigit = false) : ∀ c ∈ v, decide (c = d) = false :=
    fun c hc => decide_eq_false (ne_of_isDigit (hd c hc) h)
  have hblank : ∀ c ∈ v, isBlank c = false := fun c hc => isBlank_of_isDigit (hd c hc)
  have hsep : ∀ c ∈ 'a' :: ':' :: v, separates c = false := by
    refine List.forall_mem_cons.2 ⟨rfl, List.forall_mem_cons.2 ⟨rfl, fun c hc => ?_⟩⟩
    exact Bool.or_eq_false_iff.2 ⟨hother rfl c hc, hother rfl c hc⟩
  have hentry : Text.trim ('a' :: ':' :: v) = 'a' :: ':' :: v :=
    Text.trim_of_forall_not (List.forall_mem_cons.2 ⟨rfl, List.forall_mem_cons.2 ⟨rfl, hblank⟩⟩)
  have hread : readEntry ('a' :: ':' :: v) = .ok (['a'], [v]) := by
    show Except.ok (['a'], ((v.pieces (· = ',')).map Text.trim).filter (!·.isEmpty)) = _
    rw [Text.pieces_of_forall_not (hother rfl), List.map_singleton, Text.trim_of_forall_not hblank]
    simp [hne]
  rw [ofText, Text.pieces_of_forall_not hsep, List.foldlM_cons, enter, hentry, hread]
  rfl

namespace Plan

variable {catalogText ruleText : Text} {fallback : Bool} {f : Fault}

/-- Making a plan fails as the first of its four steps that fails. -/
theorem ofTexts_eq_error_iff : ofTexts catalogText ruleText fallback = .error f ↔
    Catalog.ofText catalogText = .error f ∨
    ∃ catalog, Catalog.ofText catalogText = .ok catalog ∧
      (RuleBook.ofText ruleText = .error f ∨
      ∃ book, RuleBook.ofText ruleText = .ok book ∧
        (Selection.ofCatalog fallback catalog book = .error f ∨
        ∃ selection, Selection.ofCatalog fallback catalog book = .ok selection ∧
          book.entries = [] ∧ f = .emptyGrid)) := by
  rw [ofTexts, bind_eq_error]
  refine or_congr_right (exists_congr fun catalog => and_congr_right fun hc => ?_)
  rw [bind_eq_error]
  refine or_congr_right (exists_congr fun book => and_congr_right fun hb => ?_)
  rw [bind_eq_error]
  refine or_congr_right (exists_congr fun selection => and_congr_right fun hs => ?_)
  rw [Grid.ofSelection_of_ofCatalog hs]
  split
  · next he => simp [he, eq_comm]
  · next he => simp [he]

/-- A fault of making a plan has a category, unless it is a number that is too
    long, and then so many digits stand next to each other in one of the texts. -/
theorem category_of_ofTexts (h : ofTexts catalogText ruleText fallback = .error f) :
    (∃ k, f.category? = some k) ∨ ∃ n, f = .version (.tooLong n) ∧ digitLimit < n ∧
      (catalogText.HasRun n ∨ ruleText.HasRun n) := by
  rcases ofTexts_eq_error_iff.1 h with hc | ⟨catalog, hc, hb | ⟨book, hb, hs | ⟨_, -, -, rfl⟩⟩⟩
  · obtain ⟨entry, rfl⟩ := Catalog.ofText_eq_error hc
    exact .inl ⟨_, rfl⟩
  · rcases RuleBook.ofText_eq_error hb with ⟨n, cause, rfl⟩ | ⟨n, hf, hn, hr⟩
    · exact .inl ⟨_, rfl⟩
    · exact .inr ⟨n, hf, hn, .inr hr⟩
  · rcases Selection.category_of_ofCatalog hc hb hs with (hf | hf) | ⟨n, hf, hn, hr⟩
    · exact .inl ⟨_, hf⟩
    · exact .inl ⟨_, hf⟩
    · exact .inr ⟨n, hf, hn, .inl hr⟩
  · exact .inl ⟨_, rfl⟩

/-- A number that is too long is met: the first line that is not read has it as a
    bound, or all lines are read and the first trial that is not settled is of a
    version with it. -/
def MeetsLongNumber (catalogText ruleText : Text) : Prop :=
  ∃ catalog, Catalog.ofText catalogText = .ok catalog ∧
    ((∃ before l behind n, RuleBook.statementLines ruleText = before ++ l :: behind ∧
        (∀ l ∈ before, ∃ s, Statement.ofLine l.2 = .ok s) ∧
        Statement.ofLine l.2 = .error (.tooLong n)) ∨
      ∃ book, RuleBook.ofText ruleText = .ok book ∧
        ∃ before t behind n, Selection.trials book catalog.entries = before ++ t :: behind ∧
          (∀ t ∈ before, Rule.Settle t.1 t.2) ∧
          Rule.includes t.1 t.2 = .error (.version (.tooLong n)))

/-- Making a plan fails without a category if and only if a number that is too
    long is met. -/
theorem exists_uncategorized_iff :
    (∃ f, ofTexts catalogText ruleText fallback = .error f ∧ f.category? = none) ↔
      MeetsLongNumber catalogText ruleText := by
  have hlong : (∃ f, ofTexts catalogText ruleText fallback = .error f ∧ f.category? = none) ↔
      ∃ n, ofTexts catalogText ruleText fallback = .error (.version (.tooLong n)) := by
    constructor
    · rintro ⟨f, h, hf⟩
      rcases category_of_ofTexts h with ⟨k, hk⟩ | ⟨n, rfl, -, -⟩
      · rw [hf] at hk
        cases hk
      · exact ⟨n, h⟩
    · exact fun ⟨n, h⟩ => ⟨_, h, rfl⟩
  -- Neither the catalog nor the grid is at fault for a number.
  have hcatalog (n : Nat) : Catalog.ofText catalogText ≠ .error (.version (.tooLong n)) := by
    intro h
    obtain ⟨entry, he⟩ := Catalog.ofText_eq_error h
    cases he
  have hgrid (n : Nat) : Fault.version (.tooLong n) ≠ .emptyGrid := Fault.noConfusion
  rw [hlong, MeetsLongNumber]
  simp only [ofTexts_eq_error_iff, hcatalog, false_or, hgrid, and_false, exists_false, or_false,
    RuleBook.ofText_eq_tooLong_iff, Selection.ofCatalog_eq_tooLong_iff]
  constructor
  · rintro ⟨n, catalog, hc, ⟨before, l, behind, h⟩ | ⟨book, hb, before, t, behind, h⟩⟩
    · exact ⟨catalog, hc, .inl ⟨before, l, behind, n, h⟩⟩
    · exact ⟨catalog, hc, .inr ⟨book, hb, before, t, behind, n, h⟩⟩
  · rintro ⟨catalog, hc, ⟨before, l, behind, n, h⟩ | ⟨book, hb, before, t, behind, n, h⟩⟩
    · exact ⟨n, catalog, hc, .inl ⟨before, l, behind, h⟩⟩
    · exact ⟨n, catalog, hc, .inr ⟨book, hb, before, t, behind, h⟩⟩

/-- A candidate that is one number with too many digits is met by a range. -/
theorem ofTexts_of_long {v : Text} (hd : ∀ c ∈ v, c.isDigit = true) (h : digitLimit < v.length)
    (fallback : Bool) : ofTexts ('a' :: ':' :: v) "a=>=1.0".toList fallback =
      .error (.version (.tooLong v.length)) := by
  have hne : v ≠ [] := List.ne_nil_of_length_pos (Nat.zero_lt_of_lt h)
  obtain ⟨book, b, hb, hr⟩ : ∃ book b, RuleBook.ofText "a=>=1.0".toList = .ok book ∧
      book.rulesOf ['a'] = [.range b] := ⟨_, _, rfl, rfl⟩
  have hcovers : (Rule.range b).covers v = .error (.version (.tooLong v.length)) := by
    rw [Rule.covers, numericPart_of_digits hd, Bound.admits, Key.ofText_of_long hd h]
    rfl
  have htrials : Selection.trials book [(['a'], [v])] = [([.range b], v)] := by
    simp [Selection.trials, hr]
  have hc := Catalog.ofText_of_digits hd hne
  refine ofTexts_eq_error_iff.2 (.inr ⟨_, hc, .inr ⟨book, hb, .inl ?_⟩⟩)
  refine Selection.ofCatalog_eq_tooLong_iff.2
    ⟨[], ([.range b], v), [], htrials, fun _ ht => absurd ht List.not_mem_nil, ?_⟩
  exact Rule.includes_eq_error_iff.2
    ⟨[], .range b, [], rfl, fun _ hr => absurd hr List.not_mem_nil, hcovers⟩

end Plan

/-! ## The stages of a plan -/

namespace Traced

variable {α β : Type}

/-- The computation ends with the outcome, and these stages end behind those
    that have ended before. -/
def Passes (body : Traced α) (outcome : Except Fault α) (stages : List Stage) : Prop :=
  ∀ t, (body t).1 = outcome ∧ (body t).2.stages = t.stages ++ stages

/-- One computation is a stage of its own. -/
theorem passes_during {x outcome : Except Fault α} (h : x = outcome) (stage : Stage) :
    (during stage (liftExcept x)).Passes outcome [stage] := fun _ => by
  subst h
  cases x <;> exact ⟨rfl, rfl⟩

theorem passes_during_note {x outcome : Except Fault α} (h : x = outcome) (stage : Stage)
    (notes : List Note) :
    (during stage (note notes >>= fun _ => liftExcept x)).Passes outcome [stage] := fun _ => by
  subst h
  cases x <;> exact ⟨rfl, rfl⟩

variable {body : Traced α} {outcome : Except Fault α} {stages : List Stage}

/-- Notes that are left first are of no stage. -/
theorem Passes.behindNote (h : body.Passes outcome stages) (notes : List Note) :
    (note notes >>= fun _ => body).Passes outcome stages := fun _ => h _

theorem Passes.timed (h : body.Passes outcome stages) (activity : String) :
    (timed activity body).Passes outcome stages := fun t => h t

/-- From the beginning, no other stages end. -/
theorem Passes.result (h : body.Passes outcome stages) :
    body.result.1 = outcome ∧ body.result.2.stages = stages := h {}

/-- Behind a result the stages of what follows end. -/
theorem Passes.bind_ok {a : α} {next : α → Traced β} {outcome : Except Fault β}
    {stages' : List Stage} (h : body.Passes (.ok a) stages) (hn : (next a).Passes outcome stages') :
    (body >>= next).Passes outcome (stages ++ stages') := by
  intro t
  obtain ⟨ho, hs⟩ := h t
  have hb : (body >>= next) t = next a (body t).2 := by
    show ExceptT.bindCont next (body t).1 (body t).2 = _
    rw [ho]
    rfl
  rw [hb, ← List.append_assoc, ← hs]
  exact hn (body t).2

/-- Behind a fault there is no other stage. -/
theorem Passes.bind_error {f : Fault} {next : α → Traced β}
    (h : body.Passes (.error f) stages) : (body >>= next).Passes (.error f) stages := by
  intro t
  obtain ⟨ho, hs⟩ := h t
  have hb : (body >>= next) t = (.error f, (body t).2) := by
    show ExceptT.bindCont next (body t).1 (body t).2 = _
    rw [ho]
    rfl
  rw [hb]
  exact ⟨rfl, hs⟩

end Traced

namespace Plan

open Traced

section Stages

variable {catalogText ruleText : Text} {fallback : Bool} {catalog : Catalog} {book : RuleBook}
  {f : Fault}

theorem passes_of_catalog_error (hc : Catalog.ofText catalogText = .error f) (ruleText : Text)
    (fallback : Bool) :
    (assemble catalogText ruleText fallback).Passes (.error f) [.readCatalog] :=
  (passes_during hc _).bind_error.timed _

variable (hc : Catalog.ofText catalogText = .ok catalog)

include hc

theorem passes_of_rules_error (hb : RuleBook.ofText ruleText = .error f) (fallback : Bool) :
    (assemble catalogText ruleText fallback).Passes (.error f) [.readCatalog, .readRules] :=
  ((passes_during hc _).bind_ok (passes_during_note hb _ _).bind_error).timed _

variable (hb : RuleBook.ofText ruleText = .ok book)

include hb

theorem passes_of_selection_error (hs : Selection.ofCatalog fallback catalog book = .error f) :
    (assemble catalogText ruleText fallback).Passes (.error f)
      [.readCatalog, .readRules, .select] :=
  ((passes_during hc _).bind_ok ((passes_during_note hb _ _).bind_ok
    ((passes_during_note hs _ _).bind_error.behindNote _))).timed _

/-- What is selected is spread, and fails to be if the rule book is empty. -/
theorem passes_of_selection {selection : Selection}
    (hs : Selection.ofCatalog fallback catalog book = .ok selection) :
    (assemble catalogText ruleText fallback).Passes
      (if book.entries = [] then .error .emptyGrid
        else .ok ⟨catalog, book, selection, Grid.spread selection.entries⟩)
      [.readCatalog, .readRules, .select, .spread] := by
  have hg := Grid.ofSelection_of_ofCatalog hs
  refine ((passes_during hc _).bind_ok ((passes_during_note hb _ _).bind_ok
    (((passes_during_note hs _ _).bind_ok ?_).behindNote _))).timed _
  split at hg
  · next he =>
    rw [if_pos he]
    exact (passes_during hg _).bind_error
  · next he =>
    rw [if_neg he]
    exact (passes_during hg _).bind_ok fun t => ⟨rfl, (List.append_nil _).symm⟩

end Stages

/-- How making a plan ends: the outcome and the stages that have ended. -/
inductive Ending (catalogText ruleText : Text) (fallback : Bool) :
    Except Fault Plan → List Stage → Prop
  | inFirst {f : Fault} (hw : ¬Catalog.WellFormed catalogText) (hf : f.category? = some .input) :
    Ending catalogText ruleText fallback (.error f) [.readCatalog]
  | inSecond {f : Fault} (hc : Catalog.WellFormed catalogText)
      (hw : ¬RuleBook.WellFormed ruleText) (hf : f.category? = some .ruleSyntax) :
    Ending catalogText ruleText fallback (.error f) [.readCatalog, .readRules]
  | inThird {f : Fault} {catalog : Catalog} {book : RuleBook}
      (hc : Catalog.ofText catalogText = .ok catalog) (hb : RuleBook.ofText ruleText = .ok book)
      (hs : Selection.ofCatalog fallback catalog book = .error f)
      (hf : f.category? = some .version ∨ f.category? = some .unmatched) :
    Ending catalogText ruleText fallback (.error f) [.readCatalog, .readRules, .select]
  | inFourth {catalog : Catalog} {book : RuleBook} {selection : Selection}
      (hc : Catalog.ofText catalogText = .ok catalog) (hb : RuleBook.ofText ruleText = .ok book)
      (hs : Selection.ofCatalog fallback catalog book = .ok selection)
      (hn : ∀ line ∈ ruleText.lines, ¬RuleBook.Speaks line) :
    Ending catalogText ruleText fallback (.error .emptyGrid)
      [.readCatalog, .readRules, .select, .spread]
  | withPlan {plan : Plan}
      (hc : Catalog.ofText catalogText = .ok plan.catalog)
      (hb : RuleBook.ofText ruleText = .ok plan.rules)
      (hs : Selection.ofCatalog fallback plan.catalog plan.rules = .ok plan.selection)
      (hn : ∃ line ∈ ruleText.lines, RuleBook.Speaks line) :
    Ending catalogText ruleText fallback (.ok plan) [.readCatalog, .readRules, .select, .spread]

/-- If no run of digits is too long, making a plan ends in one of these ways. -/
theorem ending_assemble {catalogText ruleText : Text} (hcc : catalogText.Countable)
    (hcr : ruleText.Countable) (fallback : Bool) :
    Ending catalogText ruleText fallback (assemble catalogText ruleText fallback).result.1
      (assemble catalogText ruleText fallback).result.2.stages := by
  -- The stages are gone through in order, up to the first one that fails.
  rcases exists_ok_or_error (Catalog.ofText catalogText) with ⟨catalog, hc⟩ | ⟨f, hc⟩
  · have hw : Catalog.WellFormed catalogText := Catalog.exists_ofText_iff.1 ⟨catalog, hc⟩
    rcases exists_ok_or_error (RuleBook.ofText ruleText) with ⟨book, hb⟩ | ⟨f, hb⟩
    · rcases exists_ok_or_error (Selection.ofCatalog fallback catalog book) with ⟨_, hs⟩ | ⟨f, hs⟩
      · obtain ⟨ho, hst⟩ := (passes_of_selection hc hb hs).result
        rw [ho, hst]
        have hn := RuleBook.entries_eq_nil_iff hb
        split
        · next he => exact .inFourth hc hb hs (hn.1 he)
        · next he =>
          rw [hn] at he
          push Not at he
          exact .withPlan hc hb hs he
      · obtain ⟨ho, hst⟩ := (passes_of_selection_error hc hb hs).result
        rw [ho, hst]
        rcases Selection.category_of_ofCatalog hc hb hs with hf | ⟨n, -, hn, hr⟩
        · exact .inThird hc hb hs hf
        · exact absurd (hcc n hr) (Nat.not_le_of_lt hn)
    · obtain ⟨ho, hst⟩ := (passes_of_rules_error hc hb fallback).result
      rw [ho, hst]
      have hw' : ¬RuleBook.WellFormed ruleText := by
        rw [← RuleBook.exists_ofText_iff hcr, hb]
        exact fun ⟨_, h⟩ => nomatch h
      obtain ⟨n, cause, rfl⟩ := RuleBook.exists_badRule_of_countable hcr hb
      exact .inSecond hw hw' rfl
  · obtain ⟨ho, hst⟩ := (passes_of_catalog_error hc ruleText fallback).result
    rw [ho, hst]
    have hw : ¬Catalog.WellFormed catalogText := by
      rw [← Catalog.exists_ofText_iff, hc]
      exact fun ⟨_, h⟩ => nomatch h
    obtain ⟨entry, rfl⟩ := Catalog.ofText_eq_error hc
    exact .inFirst hw rfl

/-- If no run of digits in the texts is too long, making a plan ends

    * in the first stage, if and only if the text of the catalog is not
      well-formed;
    * else in the second one, if and only if the text of the rule book is not;
    * else in the third one, with the fault of the selection, if and only if
      selecting from what was read fails;
    * else in the fourth one, if and only if no line of the rule book speaks.
      No component comes there without versions.

    The stages that have ended are those up to the end. -/
theorem ends_by_stage {catalogText ruleText : Text} (hcc : catalogText.Countable)
    (hcr : ruleText.Countable) (fallback : Bool) :
    let ended := (assemble catalogText ruleText fallback).result
    (((∃ f, ended.1 = .error f ∧ f.category? = some .input) ↔
        ¬Catalog.WellFormed catalogText) ∧
      (¬Catalog.WellFormed catalogText → ended.2.stages = [.readCatalog])) ∧
    (Catalog.WellFormed catalogText →
      ((∃ f, ended.1 = .error f ∧ f.category? = some .ruleSyntax) ↔
        ¬RuleBook.WellFormed ruleText) ∧
      (¬RuleBook.WellFormed ruleText → ended.2.stages = [.readCatalog, .readRules])) ∧
    (Catalog.WellFormed catalogText → RuleBook.WellFormed ruleText → ∃ catalog book,
      Catalog.ofText catalogText = .ok catalog ∧ RuleBook.ofText ruleText = .ok book ∧
      (∀ f, (ended.1 = .error f ∧
          (f.category? = some .version ∨ f.category? = some .unmatched)) ↔
        Selection.ofCatalog fallback catalog book = .error f) ∧
      ((∃ f, Selection.ofCatalog fallback catalog book = .error f) →
        ended.2.stages = [.readCatalog, .readRules, .select]) ∧
      ∀ selection, Selection.ofCatalog fallback catalog book = .ok selection →
        (∀ e ∈ selection.entries, e.2 ≠ []) ∧
        (ended.1 = .error .emptyGrid ↔ ∀ line ∈ ruleText.lines, ¬RuleBook.Speaks line) ∧
        ((∃ plan, ended.1 = .ok plan) ↔ ∃ line ∈ ruleText.lines, RuleBook.Speaks line) ∧
        ended.2.stages = [.readCatalog, .readRules, .select, .spread]) := by
  intro ended
  have hending : Ending catalogText ruleText fallback ended.1 ended.2.stages :=
    ending_assemble hcc hcr fallback
  generalize ended.1 = outcome at hending ⊢
  generalize ended.2.stages = stages at hending ⊢
  have hcw {catalog : Catalog} (h : Catalog.ofText catalogText = .ok catalog) :
      Catalog.WellFormed catalogText := Catalog.exists_ofText_iff.1 ⟨catalog, h⟩
  have hrw {book : RuleBook} (h : RuleBook.ofText ruleText = .ok book) :
      RuleBook.WellFormed ruleText := (RuleBook.exists_ofText_iff hcr).1 ⟨book, h⟩
  -- Each ending fulfils one of the conditions and refutes those in front of it.
  cases hending with
  | inFirst hw hf => simp [hw, hf]
  | inSecond hc hw hf => simp [hc, hw, hf]
  | @inThird f catalog book hc hb hs hf =>
    have hother : f.category? ≠ some .input ∧ f.category? ≠ some .ruleSyntax := by
      rcases hf with hf | hf <;> simp [hf]
    refine ⟨by simp [hcw hc, hother.1], by simp [hrw hb, hother.2],
      fun _ _ => ⟨catalog, book, hc, hb, ?_⟩⟩
    rw [hs]
    refine ⟨fun f' => ⟨?_, ?_⟩, fun _ => rfl, fun _ h => nomatch h⟩
    · rintro ⟨⟨⟩, -⟩
      rfl
    · rintro ⟨⟩
      exact ⟨rfl, hf⟩
  | @inFourth catalog book selection hc hb hs hn =>
    refine ⟨by simp [hcw hc, Fault.category?], by simp [hrw hb, Fault.category?],
      fun _ _ => ⟨catalog, book, hc, hb, ?_⟩⟩
    rw [hs]
    refine ⟨by simp [Fault.category?], fun ⟨_, h⟩ => (nomatch h), ?_⟩
    rintro _ ⟨⟩
    refine ⟨fun e he => Selection.ne_nil_of_mem hs he, iff_of_true rfl hn, ?_, rfl⟩
    exact iff_of_false (fun ⟨_, h⟩ => nomatch h) fun ⟨line, hl, hsp⟩ => hn line hl hsp
  | @withPlan plan hc hb hs hn =>
    refine ⟨by simp [hcw hc], by simp [hrw hb],
      fun _ _ => ⟨plan.catalog, plan.rules, hc, hb, ?_⟩⟩
    rw [hs]
    refine ⟨by simp, fun ⟨_, h⟩ => (nomatch h), ?_⟩
    rintro _ ⟨⟩
    refine ⟨fun e he => Selection.ne_nil_of_mem hs he, ?_, iff_of_true ⟨plan, rfl⟩ hn, rfl⟩
    obtain ⟨line, hl, hsp⟩ := hn
    exact iff_of_false (fun h => nomatch h) fun h => h line hl hsp

/-- Making a plan of a component with one version ends in each of the ways: without a colon
    in the catalog, with a list that is not closed, with a bound that is too high, with
    nothing but a comment, and with a bound that the version keeps to. -/
theorem ends_in_each_stage :
    let ended (catalogText ruleText : String) :=
      (assemble catalogText.toList ruleText.toList true).result
    (∀ text ∈ ["spring", "spring:5.1", "spring=[5.1", "spring=>=6.0", "# none yet\n",
      "spring=>=5.0"], Text.Countable text.toList) ∧
    ((∃ f, (ended "spring" "# none yet\n").1 = .error f ∧ f.category? = some .input) ∧
      (ended "spring" "# none yet\n").2.stages = [.readCatalog]) ∧
    ((∃ f, (ended "spring:5.1" "spring=[5.1").1 = .error f ∧ f.category? = some .ruleSyntax) ∧
      (ended "spring:5.1" "spring=[5.1").2.stages = [.readCatalog, .readRules]) ∧
    ((∃ f, (ended "spring:5.1" "spring=>=6.0").1 = .error f ∧ f.category? = some .unmatched) ∧
      (ended "spring:5.1" "spring=>=6.0").2.stages = [.readCatalog, .readRules, .select]) ∧
    ((ended "spring:5.1" "# none yet\n").1 = .error .emptyGrid ∧
      (ended "spring:5.1" "# none yet\n").2.stages =
        [.readCatalog, .readRules, .select, .spread]) ∧
    (∃ plan, (ended "spring:5.1" "spring=>=5.0").1 = .ok plan) ∧
      (ended "spring:5.1" "spring=>=5.0").2.stages =
        [.readCatalog, .readRules, .select, .spread] := by
  intro ended
  have hspring : Text.Countable "spring:5.1".toList := Text.countable_of_length_le (by decide)
  have hcomment : Text.Countable "# none yet\n".toList := Text.countable_of_length_le (by decide)
  have hcatalog : Catalog.WellFormed "spring:5.1".toList := Catalog.exists_ofText_iff.1 ⟨_, rfl⟩
  have hbook {text : String} {book : RuleBook} (hc : Text.Countable text.toList)
      (hb : RuleBook.ofText text.toList = .ok book) : RuleBook.WellFormed text.toList :=
    (RuleBook.exists_ofText_iff hc).1 ⟨book, hb⟩
  refine ⟨?_, ?_, ?_, ?_, ?_, ?_⟩
  · intro text ht
    refine Text.countable_of_length_le ?_
    revert text
    decide
  · have hwrong : Text.Countable "spring".toList := Text.countable_of_length_le (by decide)
    have hw : ¬Catalog.WellFormed "spring".toList := by
      rw [← Catalog.exists_ofText_iff]
      rintro ⟨_, h⟩
      cases h
    obtain ⟨⟨hf, hs⟩, -⟩ := ends_by_stage hwrong hcomment true
    exact ⟨hf.2 hw, hs hw⟩
  · have hopen : Text.Countable "spring=[5.1".toList := Text.countable_of_length_le (by decide)
    have hw : ¬RuleBook.WellFormed "spring=[5.1".toList := by
      rw [← RuleBook.exists_ofText_iff hopen]
      rintro ⟨_, h⟩
      cases h
    obtain ⟨-, h, -⟩ := ends_by_stage hspring hopen true
    obtain ⟨hf, hs⟩ := h hcatalog
    exact ⟨hf.2 hw, hs hw⟩
  · have hhigh : Text.Countable "spring=>=6.0".toList := Text.countable_of_length_le (by decide)
    obtain ⟨-, -, h⟩ := ends_by_stage hspring hhigh true
    obtain ⟨catalog, book, hc, hb, hf, hs, -⟩ := h hcatalog (hbook hhigh rfl)
    cases hc
    cases hb
    exact ⟨⟨_, ((hf _).2 rfl).1, rfl⟩, hs ⟨_, rfl⟩⟩
  · obtain ⟨-, -, h⟩ := ends_by_stage hspring hcomment true
    obtain ⟨catalog, book, hc, hb, -, -, h⟩ := h hcatalog (hbook hcomment rfl)
    cases hc
    cases hb
    obtain ⟨-, hf, -, hs⟩ := h _ rfl
    exact ⟨hf.2 (by decide), hs⟩
  · have hlow : Text.Countable "spring=>=5.0".toList := Text.countable_of_length_le (by decide)
    obtain ⟨-, -, h⟩ := ends_by_stage hspring hlow true
    obtain ⟨catalog, book, hc, hb, -, -, h⟩ := h hcatalog (hbook hlow rfl)
    cases hc
    cases hb
    obtain ⟨-, -, hp, hs⟩ := h _ rfl
    exact ⟨hp.2 (by decide), hs⟩

end Plan

end TestGrid
