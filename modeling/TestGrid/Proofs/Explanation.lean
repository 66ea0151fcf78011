import TestGrid.Explanation
import TestGrid.Proofs.Inclusion

/-!
# Explanations and failing rules

To explain a component every rule is tried on every candidate, so there is an
explanation if and only if no rule fails on any of them
(`exists_decisions_iff`). That is more than is needed to select versions, for a
rule that is never tried behind an exclusion may fail without harm.
-/

namespace TestGrid

open Fallible Rule

/-- There is a decision on a candidate if and only if no rule fails on it. -/
theorem Decision.exists_of_iff {rules : List Rule} {v : Text} :
    (∃ d, Decision.of rules v = .ok d) ↔ ∀ rule ∈ rules, ¬rule.Fails v := by
  have hv : ∀ rule : Rule, (∃ d, (do return Verdict.of rule (← rule.covers v)) =
      (.ok d : Except MatchFault Verdict)) ↔ ¬rule.Fails v := by
    intro rule
    rw [Fails, not_error_iff]
    cases rule.covers v <;> simp
  simp only [← hv]
  rw [← exists_mapM_eq_ok]
  simp only [Decision.of, bind_eq_ok]
  constructor
  · rintro ⟨d, verdicts, h, _⟩
    exact ⟨verdicts, h⟩
  · rintro ⟨verdicts, h⟩
    exact ⟨_, verdicts, h, rfl⟩

/-- There is an explanation if and only if no rule fails on any candidate. -/
theorem Explanation.exists_decisions_iff {rules : List Rule} {candidates : List Text} :
    (∃ ds, decisions rules candidates = .ok ds) ↔
      ∀ v ∈ candidates, ∀ rule ∈ rules, ¬rule.Fails v := by
  rw [decisions, exists_mapM_eq_ok]
  simp only [Decision.exists_of_iff]

end TestGrid
