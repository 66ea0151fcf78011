import TestGrid.Proofs.WrittenGrid

/-!
# Margins in grids

What is selected has no margins: components and candidates are trimmed as they
are read, and so are literals. A component and a candidate are not empty either,
as blank ones are passed over. A literal is, if it is the rule of a *hollow*
pattern, which has nothing but blanks in its quotes (`Rule.Hollow`): a pattern is
passed over only if it is blank with its quotes.

So a grid has lineups with an empty version if and only if such a literal stands
in for candidates that the rules do not include (`Plan.margins_of_lineups`).
-/

namespace TestGrid

open Fallible

/-! ## Hollow patterns -/

namespace Rule

/-- A pattern that is not blank, with nothing but blanks in its quotes, which are
    double ones, single ones, or single ones in double ones. -/
def Hollow (pattern : Text) : Prop :=
  ∃ m : Text, m.trim = [] ∧
    (pattern.trim = '"' :: (m ++ ['"']) ∨ pattern.trim = '\'' :: (m ++ ['\'']) ∨
      ∃ t : Text, pattern.trim = '"' :: (t ++ ['"']) ∧ t.trim = '\'' :: (m ++ ['\'']))

/-- Nothing but an empty bare pattern is an empty literal. -/
theorem ofBare_eq_empty_iff {t : Text} : ofBare t = .ok (literal [] false) ↔ t = [] := by
  refine ⟨fun h => ?_, fun h => by rw [h]; rfl⟩
  have hversion {excluded : Bool} {v : Text} (h : ofVersion excluded v = literal [] false) :
      excluded = false ∧ v = [] := by
    rw [ofVersion] at h
    split at h
    · cases h
    · exact ⟨(literal.inj h).2, (literal.inj h).1⟩
  rcases ofBare_cases t with ⟨-, he⟩ | ⟨r, -, he⟩ | ⟨-, he⟩
  · obtain ⟨bs, -, h⟩ := bounds_of_ofRange (he.symm.trans h)
    rcases h with ⟨b, -, h⟩ | ⟨b, c, -, h⟩ <;> cases h
  · exact absurd (hversion (Except.ok.inj (he.symm.trans h))).1 (by decide)
  · exact (hversion (Except.ok.inj (he.symm.trans h))).2

/-- Of the patterns that are not blank, the hollow ones are empty literals, and no
    others. -/
theorem ofPattern_eq_empty_iff {pattern : Text} (hn : pattern.trim ≠ []) :
    ofPattern pattern = .ok (literal [] false) ↔ Hollow pattern := by
  have hread : ofPattern pattern = .ok (literal [] false) ↔
      ∃ t, Unwraps '"' '"' pattern t ∧ ∃ m : Text, Unwraps '\'' '\'' t m ∧ m.trim = [] := by
    simp only [ofPattern, bind_eq_ok, unwrap_eq_ok_iff (.inr ⟨rfl, rfl⟩), ofBare_eq_empty_iff]
  rw [hread]
  constructor
  · rintro ⟨t, ht, m, hm, hb⟩
    rcases hm with hm | ⟨-, rfl⟩
    · rcases ht with ht | ⟨-, rfl⟩
      · exact ⟨m, hb, .inr (.inr ⟨t, ht, hm⟩)⟩
      · rw [(Text.trimmed_trim pattern).trim_eq] at hm
        exact ⟨m, hb, .inr (.inl hm)⟩
    · rw [(Text.trimmed_trim t).trim_eq] at hb
      rcases ht with ht | ⟨-, rfl⟩
      · exact ⟨t, hb, .inl ht⟩
      · rw [(Text.trimmed_trim pattern).trim_eq] at hb
        exact absurd hb hn
  · rintro ⟨m, hb, ht | ht | ⟨t, ht, hm⟩⟩
    · refine ⟨m, .inl ht, m.trim, .inr ⟨?_, rfl⟩, ?_⟩
      · rw [hb]
        rintro ⟨⟩
      · rw [hb]
        rfl
    · refine ⟨pattern.trim, .inr ⟨?_, rfl⟩, m, .inl ?_, hb⟩
      · rw [ht]
        rintro ⟨⟩
      · rw [(Text.trimmed_trim pattern).trim_eq, ht]
    · exact ⟨t, .inl ht, m, .inl hm, hb⟩

/-- A literal that is legible has no margins. -/
theorem Legible.trimmed_literal {v : Text} {excluded : Bool} (h : (literal v excluded).Legible) :
    v.Trimmed := by
  generalize hr : literal v excluded = rule at h
  cases h with
  | @version excluded' w trimmed start =>
    rw [ofVersion] at hr
    split at hr
    · cases hr
    · cases hr
      exact trimmed
  | range | interval => cases hr

end Rule

/-- An empty literal in a rule book is the rule of a hollow pattern in a line that
    speaks. -/
theorem RuleBook.exists_hollow_of_mem {text : Text} {book : RuleBook} (h : ofText text = .ok book)
    {c : Text} (hc : .literal [] false ∈ book.rulesOf c) :
    ∃ line ∈ text.lines, Speaks line ∧ ∃ pattern, pattern <:+: line ∧ Rule.Hollow pattern := by
  have he := mem_entries_rulesOf (List.ne_nil_of_mem hc)
  obtain ⟨line, hm, hs, hl⟩ := exists_line_of_mem_ofText h he
  obtain ⟨component, patterns, hsplit, -, -, -, hr⟩ := Statement.ofLine_eq_ok_iff.1 hl
  obtain ⟨p, ⟨hi, hn, -⟩, hp⟩ := Statement.exists_ofPattern_of_readPatterns hr hc
  refine ⟨line, hm, hs, p, ?_, (Rule.ofPattern_eq_empty_iff hn).1 hp⟩
  have hpatterns : patterns <:+: line.trim :=
    hsplit ▸ ((List.suffix_cons _ _).trans (List.suffix_append _ _)).isInfix
  exact (hi.trans hpatterns).trans (Text.trim_infix line)

/-! ## Plans -/

namespace Plan

variable {catalogText ruleText : Text} {fallback : Bool} {plan : Plan}

/-- What is selected has no margins, and nothing of it is empty but literals. -/
theorem margins_of_mem_selection (h : ofTexts catalogText ruleText fallback = .ok plan)
    {c : Text} {vs : List Text} (he : (c, vs) ∈ plan.selection.entries) :
    (c ≠ [] ∧ c.Trimmed) ∧ (∀ v ∈ vs, v.Trimmed) ∧
      ([] ∈ vs ↔ fallback = true ∧
        (∃ candidates, plan.catalog.get? c = some candidates ∧
          ∀ w ∈ candidates, ¬Rule.Includes (plan.rules.rulesOf c) w) ∧
        .literal [] false ∈ plan.rules.rulesOf c) := by
  obtain ⟨hc, hr, hs, -⟩ := ofTexts_eq_ok_iff.1 h
  obtain ⟨candidates, hget, hn, -, rfl⟩ := (Selection.mem_entries_iff hs).1 he
  have hstated := RuleBook.legible_of_ofText hr _ (RuleBook.mem_entries_rulesOf hn)
  have hcandidate {v : Text} (hv : v ∈ candidates) : v ≠ [] ∧ v.Trimmed :=
    Catalog.trimmed_of_mem_ofText hc (Roster.get?_eq_some_iff.1 hget) hv
  refine ⟨⟨hstated.ne_nil, hstated.trimmed⟩, fun v hv => ?_, ?_⟩
  · rcases Selection.mem_choice_iff.1 hv with ⟨hv, -⟩ | ⟨-, -, hv⟩
    · exact (hcandidate hv).2
    · exact (hstated.rules _ hv).trimmed_literal
  · rw [Selection.mem_choice_iff]
    constructor
    · rintro (⟨hv, -⟩ | ⟨hf, hnone, hv⟩)
      · exact absurd rfl (hcandidate hv).1
      · exact ⟨hf, ⟨candidates, hget, hnone⟩, hv⟩
    · rintro ⟨hf, ⟨candidates', hget', hnone⟩, hv⟩
      obtain rfl := Option.some_inj.1 (hget.symm.trans hget')
      exact .inr ⟨hf, hnone, hv⟩

/-- In the lineups of a plan, no component is empty, and neither components nor
    versions have margins. A component has an empty version in some lineup if and
    only if literals may stand in, its rules include none of its candidates, and
    one of them is the empty literal. Such a rule is that of a hollow pattern in a
    line that speaks. -/
theorem margins_of_lineups (h : (assemble catalogText ruleText fallback).result.1 = .ok plan) :
    (∀ lineup ∈ plan.grid, ∀ p ∈ lineup, p.1 ≠ [] ∧ p.1.Trimmed ∧ p.2.Trimmed) ∧
    (∀ c, (∃ lineup ∈ plan.grid, (c, []) ∈ lineup) ↔ fallback = true ∧
      (∃ candidates, plan.catalog.get? c = some candidates ∧
        ∀ w ∈ candidates, ¬Rule.Includes (plan.rules.rulesOf c) w) ∧
      .literal [] false ∈ plan.rules.rulesOf c) ∧
    ∀ c, .literal [] false ∈ plan.rules.rulesOf c → ∃ line ∈ ruleText.lines,
      RuleBook.Speaks line ∧ ∃ pattern, pattern <:+: line ∧ Rule.Hollow pattern := by
  rw [assemble_result] at h
  obtain ⟨-, hr, hs, -⟩ := ofTexts_eq_ok_iff.1 h
  refine ⟨fun lineup hl p hp => ?_, fun c => ?_, fun c hc => RuleBook.exists_hollow_of_mem hr hc⟩
  · obtain ⟨vs, he, hv⟩ := (exists_mem_lineup_iff h).1 ⟨lineup, hl, hp⟩
    obtain ⟨⟨hn, ht⟩, hvs, -⟩ := margins_of_mem_selection h he
    exact ⟨hn, ht, hvs _ hv⟩
  · rw [exists_mem_lineup_iff h]
    constructor
    · rintro ⟨vs, he, hv⟩
      exact (margins_of_mem_selection h he).2.2.1 hv
    · intro hempty
      -- The component has rules, so no plan is made without it.
      have hk : c ∈ plan.rules.keys := List.mem_map_of_mem
        (RuleBook.mem_entries_rulesOf (List.ne_nil_of_mem hempty.2.2))
      obtain ⟨vs, hv⟩ := Roster.mem_keys_iff.1 ((Selection.ofCatalog_eq_ok_iff.1 hs).2.2 c hk)
      have he := Roster.get?_eq_some_iff.1 hv
      exact ⟨vs, he, (margins_of_mem_selection h he).2.2.2 hempty⟩

/-- A hollow pattern does no harm to a component with a candidate that its rules
    include. -/
theorem margins_beside_hollow :
    ∃ plan, (assemble "b: 3 , 4\na:2;".toList "b=['4', \" ' '\"]\na = !2, \" 1.0 \"".toList
        true).result.1 = .ok plan ∧
      .literal [] false ∈ plan.rules.rulesOf "b".toList ∧
      (¬∃ lineup ∈ plan.grid, ("b".toList, []) ∈ lineup) ∧
      ∀ lineup ∈ plan.grid, ∀ p ∈ lineup, p.1 ≠ [] ∧ p.1.Trimmed ∧ p.2.Trimmed := by
  obtain ⟨plan, h, hl, hnot⟩ :
      ∃ plan, (assemble "b: 3 , 4\na:2;".toList "b=['4', \" ' '\"]\na = !2, \" 1.0 \"".toList
        true).result.1 = .ok plan ∧
        .literal [] false ∈ plan.rules.rulesOf "b".toList ∧
        ∃ candidates, plan.catalog.get? "b".toList = some candidates ∧
          ∃ w ∈ candidates, Rule.Includes (plan.rules.rulesOf "b".toList) w :=
    ⟨_, rfl, by decide, _, rfl, by decide⟩
  obtain ⟨candidates, hget, w, hw, hi⟩ := hnot
  refine ⟨plan, h, hl, fun hempty => ?_, (margins_of_lineups h).1⟩
  obtain ⟨-, ⟨candidates', hget', hnone⟩, -⟩ := ((margins_of_lineups h).2.1 _).1 hempty
  obtain rfl := Option.some_inj.1 (hget.symm.trans hget')
  exact hnone w hw hi

/-- Two quotes with nothing in them stand in for a candidate, beside a version. -/
theorem empty_version_of_quotes :
    ∃ plan, (assemble "a:2".toList "a=1.0, \"\"".toList true).result.1 = .ok plan ∧
      (∃ lineup ∈ plan.grid, ("a".toList, []) ∈ lineup) ∧
      plan.grid.toText = "-Da=1.0\n-Da=\n".toList := ⟨_, rfl, by decide, rfl⟩

end Plan

end TestGrid
