import TestGrid.Plan
import TestGrid.Proofs.Catalog
import TestGrid.Proofs.Grid
import TestGrid.Proofs.Selection

/-!
# Plans and their texts

The notes and stages that a computation leaves behind have no part in its
result: a computation *yields* an outcome if it ends with it whatever the trace
is that it goes on with (`Traced.Yields`). What the texts of a catalog and a rule
book yield is the work of four steps, each of which takes up the result of the
one before (`Plan.ofTexts`).

The lineups of a plan are then known from the two texts (`Plan.mem_grid_iff`):
they take the components of the catalog for which there are rules, in the order
in which the catalog first names them, each with a version that is a fit choice.
-/

namespace TestGrid

open Fallible

namespace Traced

variable {α β : Type}

/-- The computation ends with the outcome, whatever the trace before it. -/
def Yields (body : Traced α) (outcome : Except Fault α) : Prop := ∀ t, (body t).1 = outcome

theorem yields_pure (a : α) : (pure a : Traced α).Yields (.ok a) := fun _ => rfl

theorem yields_liftExcept (outcome : Except Fault α) :
    (liftExcept outcome : Traced α).Yields outcome := fun _ => by cases outcome <;> rfl

theorem Yields.bind {body : Traced α} {next : α → Traced β} {outcome : Except Fault α}
    {after : α → Except Fault β} (hb : body.Yields outcome) (hn : ∀ a, (next a).Yields (after a)) :
    (body >>= next).Yields (outcome >>= after) := by
  intro t
  show (ExceptT.bindCont next (body t).1 (body t).2).1 = outcome >>= after
  rw [hb t]
  cases outcome with
  | error e => rfl
  | ok a => exact hn a _

/-- Notes that are left first change no outcome. -/
theorem Yields.behindNote {body : Traced α} {outcome : Except Fault α} (h : body.Yields outcome)
    (notes : List Note) : (note notes >>= fun _ => body).Yields outcome := fun _ => h _

theorem Yields.andFinally {body : Traced α} {outcome : Except Fault α} (h : body.Yields outcome)
    (last : Trace → Trace) : (body.andFinally last).Yields outcome := fun t => h t

end Traced

namespace Plan

open Traced

/-- The plan of the texts of a catalog and a rule book, without its trace. -/
def ofTexts (catalogText ruleText : Text) (fallback : Bool) : Except Fault Plan := do
  let catalog ← Catalog.ofText catalogText
  let rules ← RuleBook.ofText ruleText
  let selection ← Selection.ofCatalog fallback catalog rules
  let grid ← Grid.ofSelection selection
  return { catalog, rules, selection, grid }

theorem yields_assemble (catalogText ruleText : Text) (fallback : Bool) :
    (assemble catalogText ruleText fallback).Yields (ofTexts catalogText ruleText fallback) := by
  refine Yields.andFinally ?_ _
  refine ((yields_liftExcept _).andFinally _).bind fun catalog => ?_
  refine (((yields_liftExcept _).behindNote _).andFinally _).bind fun rules => ?_
  refine Yields.behindNote ?_ _
  refine (((yields_liftExcept _).behindNote _).andFinally _).bind fun selection => ?_
  refine ((yields_liftExcept _).andFinally _).bind fun grid => ?_
  exact (yields_pure _).behindNote _

/-- Without its trace, making a plan has the outcome that the texts have. -/
theorem assemble_result (catalogText ruleText : Text) (fallback : Bool) :
    (assemble catalogText ruleText fallback).result.1 = ofTexts catalogText ruleText fallback :=
  yields_assemble catalogText ruleText fallback {}

/-- Texts have a plan if and only if each of the four steps succeeds. -/
theorem ofTexts_eq_ok_iff {catalogText ruleText : Text} {fallback : Bool} {plan : Plan} :
    ofTexts catalogText ruleText fallback = .ok plan ↔
      Catalog.ofText catalogText = .ok plan.catalog ∧ RuleBook.ofText ruleText = .ok plan.rules ∧
        Selection.ofCatalog fallback plan.catalog plan.rules = .ok plan.selection ∧
          Grid.ofSelection plan.selection = .ok plan.grid := by
  rw [ofTexts]
  constructor
  · intro h
    obtain ⟨catalog, hc, h⟩ := bind_eq_ok.1 h
    obtain ⟨rules, hr, h⟩ := bind_eq_ok.1 h
    obtain ⟨selection, hs, h⟩ := bind_eq_ok.1 h
    obtain ⟨grid, hg, h⟩ := bind_eq_ok.1 h
    cases h
    exact ⟨hc, hr, hs, hg⟩
  · rintro ⟨hc, hr, hs, hg⟩
    rw [hc, ok_bind, hr, ok_bind, hs, ok_bind, hg, ok_bind]
    rfl

/-- The lineups of a plan have the versions that are selected, and no others. -/
theorem exists_mem_lineup_iff {catalogText ruleText : Text} {fallback : Bool} {plan : Plan}
    (h : ofTexts catalogText ruleText fallback = .ok plan) {c v : Text} :
    (∃ lineup ∈ plan.grid, (c, v) ∈ lineup) ↔
      ∃ vs, (c, vs) ∈ plan.selection.entries ∧ v ∈ vs := by
  obtain ⟨-, -, -, hg⟩ := ofTexts_eq_ok_iff.1 h
  obtain ⟨⟨-, hv⟩, hg⟩ := Grid.ofSelection_eq_ok_iff.1 hg
  rw [hg]
  exact Grid.exists_mem_spread_iff hv

/-- The lineups of a plan are those that take each component of the catalog for
    which there are rules, in the order of the catalog, with a fit version; there
    are rules for no other component, and no component has candidates in some
    lineups and literals in others. -/
theorem mem_grid_iff {catalogText ruleText : Text} {fallback : Bool} {plan : Plan}
    (h : (assemble catalogText ruleText fallback).result.1 = .ok plan) :
    (Catalog.ofText catalogText = .ok plan.catalog ∧ RuleBook.ofText ruleText = .ok plan.rules) ∧
    plan.catalog.keys =
      ((catalogText.pieces Catalog.separates).filterMap Catalog.componentOf?).eraseDups ∧
    (plan.catalog.keys.filter (· ∈ plan.rules.keys)).Perm plan.rules.keys ∧
    (∀ lineup : Lineup, lineup ∈ plan.grid ↔
      lineup.map Prod.fst = plan.catalog.keys.filter (· ∈ plan.rules.keys) ∧
        ∀ p ∈ lineup, ∃ candidates, plan.catalog.get? p.1 = some candidates ∧
          Selection.Fit fallback (plan.rules.rulesOf p.1) candidates p.2) ∧
    ∀ c candidates, plan.catalog.get? c = some candidates →
      (∀ lineup ∈ plan.grid, ∀ v, (c, v) ∈ lineup →
        v ∈ candidates ∧ Rule.Includes (plan.rules.rulesOf c) v) ∨
      fallback = true ∧ (∀ w ∈ candidates, ¬Rule.Includes (plan.rules.rulesOf c) w) ∧
        ∀ lineup ∈ plan.grid, ∀ v, (c, v) ∈ lineup → .literal v false ∈ plan.rules.rulesOf c := by
  rw [assemble_result] at h
  obtain ⟨hc, hr, hs, hg⟩ := ofTexts_eq_ok_iff.1 h
  have hk := Selection.keys_eq_filter hs
  have hmem : ∀ lineup : Lineup, lineup ∈ plan.grid ↔
      lineup.map Prod.fst = plan.catalog.keys.filter (· ∈ plan.rules.keys) ∧
        ∀ p ∈ lineup, ∃ candidates, plan.catalog.get? p.1 = some candidates ∧
          Selection.Fit fallback (plan.rules.rulesOf p.1) candidates p.2 := by
    intro lineup
    rw [(Grid.ofSelection_eq_ok_iff.1 hg).2, Grid.mem_spread,
      Lineup.takes_iff plan.selection.nodup, ← hk]
    refine and_congr_right fun hl => forall₂_congr fun p hp => ?_
    -- A component of the lineup is one of the selection.
    have hp : p.1 ∈ plan.selection.keys := by
      rw [Roster.keys, ← hl]
      exact List.mem_map_of_mem hp
    exact Selection.exists_mem_entries_iff hs hp
  refine ⟨⟨hc, hr⟩, Catalog.keys_ofText hc, hk ▸ Selection.keys_perm hs, hmem, ?_⟩
  intro c candidates hcand
  have hfit : ∀ lineup ∈ plan.grid, ∀ v, (c, v) ∈ lineup →
      Selection.Fit fallback (plan.rules.rulesOf c) candidates v := by
    intro lineup hl v hv
    obtain ⟨candidates', hcand', hf⟩ := ((hmem lineup).1 hl).2 (c, v) hv
    rw [hcand, Option.some_inj] at hcand'
    exact hcand' ▸ hf
  rcases Selection.fit_unmixed fallback (plan.rules.rulesOf c) candidates with hu | ⟨hf, hn, hu⟩
  · exact .inl fun lineup hl v hv => hu v (hfit lineup hl v hv)
  · exact .inr ⟨hf, hn, fun lineup hl v hv => hu v (hfit lineup hl v hv)⟩

/-- A component with a fit candidate takes it; one without takes its literal. -/
theorem lineup_of_candidate_and_literal :
    ∃ plan, (assemble "dubbo:2.7.7,2.7.8;log4j:1.2;spring:5.1".toList
        "spring=6.0\ndubbo=2.7*, !2.7.8".toList true).result.1 = .ok plan ∧
      plan.grid = [[("dubbo".toList, "2.7.7".toList), ("spring".toList, "6.0".toList)]] ∧
      ∀ p ∈ [("dubbo".toList, "2.7.7".toList), ("spring".toList, "6.0".toList)],
        ∃ candidates, plan.catalog.get? p.1 = some candidates ∧
          Selection.Fit true (plan.rules.rulesOf p.1) candidates p.2 := by
  obtain ⟨plan, h, hg⟩ : ∃ plan, (assemble "dubbo:2.7.7,2.7.8;log4j:1.2;spring:5.1".toList
      "spring=6.0\ndubbo=2.7*, !2.7.8".toList true).result.1 = .ok plan ∧
        plan.grid = [[("dubbo".toList, "2.7.7".toList), ("spring".toList, "6.0".toList)]] :=
    ⟨_, rfl, rfl⟩
  refine ⟨plan, h, hg, ?_⟩
  exact (((mem_grid_iff h).2.2.2.1 _).1 (hg ▸ List.mem_cons_self)).2

end Plan

end TestGrid
