import TestGrid.Proofs.Agreement
import TestGrid.Proofs.Explanation

/-!
# Verdicts and what is chosen

An explanation tries every rule on every candidate, while versions are chosen with
as few trials as will do. Where there is an explanation the two say the same: a
candidate is included by its verdicts if and only if the rules include it
(`Decision.included_iff`), so that the included candidates of the explanation are
the ones that are chosen from (`Explanation.kept_eq_fitting`).

What is shown of an explanation tells what is chosen, too: a panel stands below the
table if no candidate is included, and which one depends on the stand-ins
(`explained_as_chosen`).
-/

namespace TestGrid

open Fallible Rule

/-! ## Decisions -/

/-- A decision has the verdict of each rule on its version. -/
theorem Decision.of_eq_ok_iff {rules : List Rule} {v : Text} {d : Decision} :
    Decision.of rules v = .ok d ↔ d.version = v ∧
      (rules.mapM fun rule => return Verdict.of rule (← rule.covers v)) = .ok d.verdicts := by
  obtain ⟨version, verdicts⟩ := d
  rw [Decision.of, bind_eq_ok]
  constructor
  · rintro ⟨_, h, ⟨⟩⟩
    exact ⟨rfl, h⟩
  · rintro ⟨rfl, h⟩
    exact ⟨verdicts, h, rfl⟩

/-- A decision includes its version if and only if the rules do. -/
theorem Decision.included_iff {rules : List Rule} {v : Text} {d : Decision}
    (h : Decision.of rules v = .ok d) : d.included = true ↔ Includes rules v := by
  obtain ⟨-, hverdicts⟩ := of_eq_ok_iff.1 h
  have hexcluded : (∃ verdict ∈ d.verdicts, verdict = .excluded) ↔ ∃ rule ∈ rules, rule.Bars v := by
    refine exists_mem_mapM_iff hverdicts fun rule verdict h => ?_
    obtain ⟨b, hb, ⟨⟩⟩ := bind_eq_ok.1 h
    cases b <;> cases he : rule.excluded <;> simp [Verdict.of, Bars, hb, he]
  have hcovered : (∃ verdict ∈ d.verdicts, verdict ≠ .missed) ↔
      ∃ rule ∈ rules, rule.Wants v ∨ rule.Bars v := by
    refine exists_mem_mapM_iff hverdicts fun rule verdict h => ?_
    obtain ⟨b, hb, ⟨⟩⟩ := bind_eq_ok.1 h
    cases b <;> cases he : rule.excluded <;> simp [Verdict.of, Wants, Bars, hb, he]
  simp only [Decision.included, Bool.and_eq_true, List.any_eq_true, decide_eq_true_eq,
    Bool.not_eq_true', ← Bool.not_eq_true, hcovered, hexcluded, Includes]
  constructor
  · rintro ⟨⟨rule, hr, hw⟩, hno⟩
    have hbar : ∀ rule ∈ rules, ¬rule.Bars v := fun rule hr hb => hno ⟨rule, hr, hb⟩
    exact ⟨⟨rule, hr, hw.resolve_right (hbar rule hr)⟩, hbar⟩
  · rintro ⟨⟨rule, hr, hw⟩, hbar⟩
    refine ⟨⟨rule, hr, .inl hw⟩, ?_⟩
    rintro ⟨rule, hr, hb⟩
    exact hbar rule hr hb

namespace Explanation

variable {rules : List Rule} {candidates : List Text} {ds : List Decision}
  (h : decisions rules candidates = .ok ds)

/-- The candidates that an explanation includes. -/
def kept (ds : List Decision) : List Text := (ds.filter Decision.included).map Decision.version

include h

/-- An explanation includes the candidates that the rules include. -/
theorem kept_eq_fitting : kept ds = Selection.fitting rules candidates := by
  rw [decisions, mapM_eq_ok] at h
  induction h with
  | nil => rfl
  | @cons v d _ _ hd _ ih =>
    rw [kept] at ih
    rw [kept, Selection.fitting, List.filter_cons, List.filter_cons, ← Selection.fitting, ← ih]
    by_cases hi : Includes rules v
    · rw [if_pos ((Decision.included_iff hd).2 hi), if_pos (decide_eq_true hi), List.map_cons,
        (Decision.of_eq_ok_iff.1 hd).1]
    · rw [if_neg fun he => hi ((Decision.included_iff hd).1 he),
        if_neg fun he => hi (of_decide_eq_true he)]

/-- Where there is an explanation, versions are chosen: the included candidates, or the
    stand-ins if there are none. -/
theorem choose_eq (fallback : Bool) : Selection.choose fallback rules candidates =
    .ok (if kept ds = [] then (standIns fallback rules).getD [] else kept ds) := by
  have hsettle : ∀ v ∈ candidates, Settle rules v := fun v hv =>
    exists_includes_of_not_fails (exists_decisions_iff.1 ⟨ds, h⟩ v hv)
  rw [Selection.choose_eq_ok_iff.2 ⟨hsettle, rfl⟩, Selection.choice, ← kept_eq_fitting h]
  cases fallback with
  | true => simp [standIns]
  | false =>
    simp only [Bool.false_eq_true, and_false, if_false, standIns, Option.getD_none]
    split <;> simp_all

/-- Each decision has a verdict for each rule. -/
theorem length_verdicts {d : Decision} (hd : d ∈ ds) : d.verdicts.length = rules.length := by
  obtain ⟨v, -, hv⟩ := exists_of_mem_mapM h hd
  exact (mapM_eq_ok.1 (Decision.of_eq_ok_iff.1 hv).2).length_eq.symm

end Explanation

/-! ## What is shown -/

namespace Report

/-- The panel with versions that stand in. -/
def standInPanel (versions : List Text) : Drawing :=
  info (words "No candidate matched; case specific versions used: " ++
    Text.joined [',', ' '] versions) none

/-- The panel that says that nothing is chosen for a component. -/
def unmatchedPanel (component : Text) : Drawing :=
  error (words "Component not match: " ++ component) none

/-- The panels below the table of an explanation, by the candidates that it includes and the
    versions that may stand in for them. -/
def panels (component : Text) (kept standIns : List Text) : List Drawing :=
  if kept ≠ [] then [] else if standIns ≠ [] then [standInPanel standIns]
  else [unmatchedPanel component]

theorem explanation_eq (component : Text) (rules : List Rule) (ds : List Decision)
    (standIns : Option (List Text)) : explanation component rules ds standIns =
      decisions component rules ds ::
        panels component (Explanation.kept ds) (standIns.getD []) := by
  have hkept : ds.any Decision.included = true ↔ Explanation.kept ds ≠ [] := by
    simp [Explanation.kept]
  rw [explanation.eq_def, panels]
  simp only [hkept]
  match standIns with
  | none | some [] | some (_ :: _) => rfl

/-- The panels tell what is chosen: stand-ins, nothing, or included candidates. -/
theorem panels_iff (component : Text) (kept standIns : List Text) :
    let versions := if kept = [] then standIns else kept
    (panels component kept standIns = [standInPanel versions] ↔ kept = [] ∧ versions ≠ []) ∧
      (panels component kept standIns = [unmatchedPanel component] ↔ versions = []) ∧
      (panels component kept standIns = [] ↔ kept ≠ []) := by
  have hother (versions : List Text) : standInPanel versions ≠ unmatchedPanel component := by
    simp [standInPanel, unmatchedPanel, info, error]
  rw [panels]
  by_cases hk : kept = []
  · by_cases hs : standIns = []
    · simp [hk, hs, (hother _).symm]
    · simp [hk, hs, hother]
  · simp [hk]

/-- Each row of the table has a cell for each column. -/
theorem length_decisionRow {rules : List Rule} {d : Decision}
    (h : d.verdicts.length = rules.length) : (decisionRow d).length = rules.length + 2 := by
  simp [decisionRow, h]

end Report

namespace Command

open Storage

/-- Where there is an explanation, versions are chosen, and they are those that the
    explanation includes, or the stand-ins if it includes none. The table that is shown has
    a row for each candidate and a column for each rule, one for the candidates and one for
    the results. Below it stands the panel with the stand-ins if these are chosen, the one
    with the error if nothing is, and none if candidates are chosen. The run that explains
    the component ends with the status 2 if nothing is chosen, and otherwise with 0. -/
theorem explained_as_chosen {fallback : Bool} {rules : List Rule} {candidates : List Text}
    {ds : List Decision} (h : Explanation.decisions rules candidates = .ok ds) (component : Text) :
    let kept := Explanation.kept ds
    let standIns := Explanation.standIns fallback rules
    let versions := if kept = [] then standIns.getD [] else kept
    Selection.choose fallback rules candidates = .ok versions ∧
    (∃ title columns rows panels,
      Report.explanation component rules ds standIns = .table title columns rows :: panels ∧
      columns.length = rules.length + 2 ∧ rows.length = candidates.length ∧
      (∀ row ∈ rows, row.length = columns.length) ∧
      (panels = [Report.standInPanel versions] ↔ kept = [] ∧ versions ≠ []) ∧
      (panels = [Report.unmatchedPanel component] ↔ versions = []) ∧
      (panels = [] ↔ kept ≠ [])) ∧
    ∀ (w : Workspace) (path : Files.Path) (catalogText ruleText : Text), w.journal.OnScreen →
      HasText w.directory w.tree path ruleText →
      ifSaid catalogText (inputsOf component catalogText ruleText.unifyBreaks) =
        .ok (rules, candidates) →
      exitStatus ((explain ⟨component, some catalogText, some path, fallback⟩).perform w).1 =
        if versions = [] then 2 else 0 := by
  intro kept standIns versions
  have hchoose : Selection.choose fallback rules candidates = .ok versions :=
    Explanation.choose_eq h fallback
  refine ⟨hchoose, ⟨_, _, _, _, Report.explanation_eq component rules ds standIns, by simp, ?_, ?_,
    Report.panels_iff component kept (standIns.getD [])⟩,
    fun w path catalogText ruleText hscreen hfile hinputs => ?_⟩
  · rw [List.length_map]
    exact (mapM_eq_ok.1 h).length_eq.symm
  · intro row hrow
    obtain ⟨d, hd, rfl⟩ := List.mem_map.1 hrow
    rw [Report.length_decisionRow (Explanation.length_verdicts h hd)]
    simp
  · have hend := ends_explain hfile component catalogText fallback
    rw [hinputs, ok_bind, explained_of_ok h, selected, hchoose] at hend
    rw [hend.exitStatus_eq hscreen]
    show statusOfVersions versions = _
    simp only [statusOfVersions, List.isEmpty_iff]

/-- The only candidate is excluded, and the literal `1.0` may not stand in for it. -/
theorem explained_as_chosen_of_exclusion :
    let rules : List Rule := [.literal "1.0".toList false, .wildcard "2.*".toList true]
    let desk := deskWith "a=1.0, !2.*".toList
    Explanation.decisions rules ["2.0".toList] =
        .ok [⟨"2.0".toList, [.missed, .excluded]⟩] ∧
      Selection.choose false rules ["2.0".toList] = .ok [] ∧
      exitStatus ((explain ⟨"a".toList, some "a:2.0".toList, some (.ofText "r.conf".toList),
        false⟩).perform desk).1 = 2 := by
  intro rules desk
  have h : Explanation.decisions rules ["2.0".toList] =
      .ok [⟨"2.0".toList, [.missed, .excluded]⟩] := rfl
  obtain ⟨hchoose, -, hrun⟩ := @explained_as_chosen false _ _ _ h "a".toList
  exact ⟨h, hchoose, hrun desk _ "a:2.0".toList _ Journal.onScreen_fresh
    (ready_deskWith "a=1.0, !2.*".toList).rules_held rfl⟩

end Command

end TestGrid
