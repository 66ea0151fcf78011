import TestGrid.Proofs.Selection

/-!
# How far exclusions reach

An exclusion is to win over any inclusion. It does so among the candidates: no
candidate that an exclusion bars is chosen. Two things limit it:

* the order of the rules, where a rule fails on the very version that the
  exclusion bars: which of the two is tried first decides
  (`exclusion_wins_in_any_order_iff`);
* the literals that stand in for candidates, for these are taken from the rules
  as they are, also where an exclusion bars them (`exists_chosen_barred_iff`).
-/

namespace TestGrid

open Version Fallible Rule

/-! ## The order of the rules -/

/-- An exclusion bars a version if and only if it stands in front of all rules
    that fail on it. -/
theorem includes_eq_false_iff {rules : List Rule} {v : Text} (h : ∃ rule ∈ rules, rule.Bars v) :
    includes rules v = .ok false ↔ ∃ before rule behind,
      rules = before ++ rule :: behind ∧ rule.Bars v ∧ ∀ r ∈ before, ¬r.Fails v := by
  constructor
  · intro hi
    rcases exists_first_stop rules v with hs | ⟨before, rule, behind, rfl, hr | ⟨f, hr⟩, hs⟩
    · obtain ⟨rule, hm, hb⟩ := h
      exact absurd (.inl hb) (hs rule hm)
    · exact ⟨before, rule, behind, rfl, hr, fun r hm hf => hs r hm (.inr hf)⟩
    · rw [includes_of_first_fails hs hr] at hi
      cases hi
  · rintro ⟨before, rule, behind, rfl, hb, hf⟩
    rcases exists_first_stop before v with hs | ⟨before, r, between, rfl, hr | hr, hs⟩
    · exact includes_of_first_bars hs hb
    · rw [List.append_assoc, List.cons_append]
      exact includes_of_first_bars hs hr
    · exact absurd hr (hf r (List.mem_append_right _ List.mem_cons_self))

/-- Rules of which none fails on a version have the declared outcome in any
    order. -/
theorem includes_of_perm {rules rules' : List Rule} {v : Text} (hp : rules'.Perm rules)
    (h : ∀ rule ∈ rules, ¬rule.Fails v) : includes rules' v = .ok (decide (Includes rules v)) := by
  obtain ⟨b, hb⟩ := exists_includes_of_not_fails fun rule hr => h rule (hp.mem_iff.1 hr)
  have hi : Includes rules' v ↔ Includes rules v := by simp only [Includes, hp.mem_iff]
  rw [hb, Except.ok.injEq, Bool.eq_iff_iff, decide_eq_true_eq, eq_true_iff_of_includes hb, hi]

/-- Rules of which one fails on a version and none bars it fail in any order. -/
theorem exists_includes_eq_error_of_perm {rules rules' : List Rule} {v : Text}
    (hp : rules'.Perm rules) (hf : ∃ rule ∈ rules, rule.Fails v)
    (hb : ∀ rule ∈ rules, ¬rule.Bars v) : ∃ f, includes rules' v = .error f := by
  obtain ⟨rule, hm, hf⟩ := hf
  obtain ⟨before, behind, rfl⟩ := List.append_of_mem (hp.mem_iff.2 hm)
  exact exists_includes_eq_error_iff.2 ⟨before, rule, behind, rfl, hf, fun r hr =>
    hb r (hp.mem_iff.1 (List.mem_append_left _ hr))⟩

/-- A rule that fails on a version makes the rules fail if it comes first. -/
theorem exists_perm_error {rules : List Rule} {v : Text} (h : ∃ rule ∈ rules, rule.Fails v) :
    ∃ rules', rules'.Perm rules ∧ ∃ f, includes rules' v = .error f := by
  obtain ⟨rule, hm, hf⟩ := h
  refine ⟨rule :: rules.erase rule, (List.perm_cons_erase hm).symm, ?_⟩
  exact exists_includes_eq_error_iff.2 ⟨[], rule, _, rfl, hf, fun _ h => absurd h List.not_mem_nil⟩

/-- An exclusion that bars a version refuses it if it comes first. -/
theorem exists_perm_false {rules : List Rule} {v : Text} (h : ∃ rule ∈ rules, rule.Bars v) :
    ∃ rules', rules'.Perm rules ∧ includes rules' v = .ok false := by
  obtain ⟨rule, hm, hb⟩ := h
  refine ⟨rule :: rules.erase rule, (List.perm_cons_erase hm).symm, ?_⟩
  show includes ([] ++ rule :: rules.erase rule) v = .ok false
  exact includes_of_first_bars (fun _ h => absurd h List.not_mem_nil) hb

/-- The outcome of rules does not depend on their order, and an exclusion wins
    in any order, unless one rule bars the version and another one fails on it.
    Then the exclusion wins where it stands in front of those that fail. -/
theorem exclusion_wins_in_any_order_iff (rules : List Rule) (v : Text) :
    ((∀ rules', rules'.Perm rules →
        (includes rules' v).toOption = (includes rules v).toOption) ↔
      ¬((∃ rule ∈ rules, rule.Bars v) ∧ ∃ rule ∈ rules, rule.Fails v)) ∧
    (((∃ rule ∈ rules, rule.Bars v) →
        ∀ rules', rules'.Perm rules → includes rules' v = .ok false) ↔
      ¬((∃ rule ∈ rules, rule.Bars v) ∧ ∃ rule ∈ rules, rule.Fails v)) ∧
    ((∃ rule ∈ rules, rule.Bars v) →
      (includes rules v = .ok false ↔ ∃ before rule behind,
        rules = before ++ rule :: behind ∧ rule.Bars v ∧ ∀ r ∈ before, ¬r.Fails v)) := by
  refine ⟨⟨fun h ⟨hb, hf⟩ => ?_, fun h rules' hp => ?_⟩,
    ⟨fun h ⟨hb, hf⟩ => ?_, fun h hb rules' hp => ?_⟩, includes_eq_false_iff⟩
  · -- One order refuses the version, another one fails on it.
    obtain ⟨refused, hp, hr⟩ := exists_perm_false hb
    obtain ⟨failing, hp', f, hf⟩ := exists_perm_error hf
    have := (h refused hp).trans (h failing hp').symm
    rw [hr, hf] at this
    cases this
  · by_cases hf : ∃ rule ∈ rules, rule.Fails v
    · have hb : ∀ rule ∈ rules, ¬rule.Bars v := fun rule hm hb => h ⟨⟨rule, hm, hb⟩, hf⟩
      obtain ⟨f, he⟩ := exists_includes_eq_error_of_perm hp hf hb
      obtain ⟨f', he'⟩ := exists_includes_eq_error_of_perm (.refl _) hf hb
      rw [he, he']
      rfl
    · have hf : ∀ rule ∈ rules, ¬rule.Fails v := fun rule hm hr => hf ⟨rule, hm, hr⟩
      rw [includes_of_perm hp hf, includes_of_perm (.refl _) hf]
  · obtain ⟨failing, hp, f, hf⟩ := exists_perm_error hf
    have := h hb failing hp
    rw [hf] at this
    cases this
  · have hf : ∀ rule ∈ rules, ¬rule.Fails v := fun rule hm hr => h ⟨hb, rule, hm, hr⟩
    obtain ⟨rule, hm, hb⟩ := hb
    rw [includes_of_perm hp hf, decide_eq_false fun hi => hi.2 rule hm hb]

/-- The exclusion of `1.x` refuses it in front of a bound; behind the bound it
    is not reached, for `1.x` has no key. -/
theorem exclusion_behind_bound_not_reached :
    let bound : Bound := ⟨.atLeast, "1.0".toList, ⟨1, 0, 0, 0⟩, rfl⟩
    let exclusion := literal "1.x".toList true
    exclusion.Bars "1.x".toList ∧
      [range bound, exclusion].Perm [exclusion, range bound] ∧
      includes [exclusion, range bound] "1.x".toList = .ok false ∧
      includes [range bound, exclusion] "1.x".toList =
        .error (.version (.notNumeric "x".toList "1.x".toList)) :=
  ⟨⟨rfl, rfl⟩, .swap _ _ _, rfl, rfl⟩

/-! ## Literals that stand in -/

namespace Selection

/-- A chosen candidate is not barred. -/
theorem not_bars_of_mem_fitting {rules : List Rule} {candidates : List Text} {v : Text}
    (h : v ∈ fitting rules candidates) : ∀ rule ∈ rules, ¬rule.Bars v := by
  rw [fitting, List.mem_filter, decide_eq_true_eq] at h
  exact h.2.2

/-- No version that an exclusion bars is chosen where some candidate is included
    or literals may not stand in. Otherwise all literals are chosen, and so one
    that is barred if there is any. -/
theorem exists_chosen_barred_iff {fallback : Bool} {rules : List Rule}
    {candidates versions : List Text} (h : choose fallback rules candidates = .ok versions) :
    ((fallback = false ∨ ∃ v ∈ candidates, Includes rules v) →
      ∀ v ∈ versions, ∀ rule ∈ rules, ¬rule.Bars v) ∧
    (fallback = true → (∀ v ∈ candidates, ¬Includes rules v) → versions = literals rules) ∧
    ((∃ v ∈ versions, ∃ rule ∈ rules, rule.Bars v) ↔
      fallback = true ∧ (∀ v ∈ candidates, ¬Includes rules v) ∧
        ∃ v ∈ literals rules, ∃ rule ∈ rules, rule.Bars v) := by
  obtain ⟨_, rfl⟩ := choose_eq_ok_iff.1 h
  have hlit (hf : fallback = true) (hn : ∀ v ∈ candidates, ¬Includes rules v) :
      choice fallback rules candidates = literals rules :=
    if_pos ⟨fitting_eq_nil_iff.2 hn, hf⟩
  have hfit (hk : ¬(fitting rules candidates = [] ∧ fallback = true)) :
      choice fallback rules candidates = fitting rules candidates := if_neg hk
  refine ⟨fun hk v hv => ?_, hlit, fun ⟨v, hv, hb⟩ => ?_, fun ⟨hf, hn, hb⟩ => ?_⟩
  · rw [hfit] at hv
    · exact not_bars_of_mem_fitting hv
    · rintro ⟨hnil, rfl⟩
      obtain ⟨w, hw, hi⟩ := hk.resolve_left Bool.noConfusion
      exact fitting_eq_nil_iff.1 hnil w hw hi
  · by_cases hk : fitting rules candidates = [] ∧ fallback = true
    · have hn := fitting_eq_nil_iff.1 hk.1
      exact ⟨hk.2, hn, v, hlit hk.2 hn ▸ hv, hb⟩
    · rw [hfit hk] at hv
      obtain ⟨rule, hm, hb⟩ := hb
      exact absurd hb (not_bars_of_mem_fitting hv rule hm)
  · rw [hlit hf hn]
    exact hb

theorem exists_chosen_barred_of_shape :
    choose true [literal "2.7.8".toList false, wildcard "2.7*".toList true] ["2.7.8".toList] =
        .ok ["2.7.8".toList] ∧
      ∃ v ∈ ["2.7.8".toList],
        ∃ rule ∈ [literal "2.7.8".toList false, wildcard "2.7*".toList true], rule.Bars v := by
  have h : choose true [literal "2.7.8".toList false, wildcard "2.7*".toList true]
      ["2.7.8".toList] = .ok ["2.7.8".toList] := rfl
  exact ⟨h, (exists_chosen_barred_iff h).2.2.2 ⟨rfl, by decide, by decide⟩⟩

/-- The version that `!2.7*` bars is chosen as the literal that it is: as it is
    the only candidate, no candidate is included. -/
theorem literal_chosen_though_barred :
    (wildcard "2.7*".toList true).Bars "2.7.8".toList ∧
      choose true [literal "2.7.8".toList false, wildcard "2.7*".toList true] ["2.7.8".toList] =
        .ok ["2.7.8".toList] :=
  ⟨⟨rfl, rfl⟩, rfl⟩

end Selection

end TestGrid
