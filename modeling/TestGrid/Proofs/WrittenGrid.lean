import TestGrid.Proofs.Plan
import TestGrid.Proofs.WrittenBook

/-!
# Grids as they are written

A lineup is *legible* if its flags are read back from their line: there is no
equals sign in a component, and neither the character between flags nor the one
behind lines in a component or a version (`Lineup.Legible`). A grid of legible
lineups is read back from its text, which has a line for each of them
(`Grid.ofText_toText`).

The lineups of a plan are legible if there is no space in them
(`Plan.legible_of_mem_grid`): a component is one of the rule book, which has no
equals sign in it and is of one line, and so are literals and the candidates of
an entry.
-/

namespace TestGrid

open Fallible

/-! ## Lineups -/

namespace Lineup

/-- A lineup of which a line of flags can be written. -/
structure Legible (lineup : Lineup) : Prop where
  ne_nil : lineup ≠ []
  noEquals : ∀ p ∈ lineup, '=' ∉ p.1
  noSpace : ∀ p ∈ lineup, ' ' ∉ p.1 ∧ ' ' ∉ p.2
  noFeed : ∀ p ∈ lineup, '\n' ∉ p.1 ∧ '\n' ∉ p.2

/-- A flag is read up to its first equals sign, wherever others are. -/
theorem readFlag_flag {component : Text} (h : '=' ∉ component) (version : Text) :
    readFlag (flag component version) = some (component, version) :=
  Text.cut_eq_some_iff.2 ⟨rfl, h⟩

theorem not_mem_flag {c : Char} (hc : c ∉ ['-', 'D', '=']) {component version : Text}
    (h : c ∉ component ∧ c ∉ version) : c ∉ flag component version := by
  simp only [List.mem_cons, List.not_mem_nil, or_false, not_or] at hc
  simp [flag, hc, h]

/-- A line of flags is read between its spaces. -/
theorem ofFlags_flags {lineup : Lineup} (h : lineup.Legible) :
    ofFlags lineup.flags = some lineup := by
  have hpieces : Text.pieces (· = ' ') lineup.flags = lineup.map fun p => flag p.1 p.2 := by
    refine Text.pieces_joined (by decide) (fun hn => h.ne_nil (List.map_eq_nil_iff.1 hn)) ?_
    refine List.forall_mem_map.2 fun p hp x hx => decide_eq_false fun hs : x = ' ' => ?_
    exact not_mem_flag (by decide) (h.noSpace p hp) (hs ▸ hx)
  rw [ofFlags, hpieces]
  exact mapM_map_eq_some fun p hp => readFlag_flag (h.noEquals p hp) p.2

/-- A line of flags is one line. -/
theorem not_mem_flags {lineup : Lineup} (h : lineup.Legible) : '\n' ∉ lineup.flags := by
  intro hm
  rcases Text.mem_joined hm with hm | ⟨t, ht, hm⟩
  · exact absurd hm (by decide)
  · obtain ⟨p, hp, rfl⟩ := List.mem_map.1 ht
    exact not_mem_flag (by decide) (h.noFeed p hp) hm

end Lineup

/-! ## Grids -/

namespace Grid

variable {grid : Grid} (h : ∀ lineup ∈ grid, lineup.Legible)

include h

/-- The lines of a grid are those of its lineups, with nothing behind the last
    one. -/
theorem pieces_toText : Text.pieces (· = '\n') grid.toText = grid.map Lineup.flags ++ [[]] := by
  induction grid with
  | nil => rfl
  | cons lineup grid ih =>
    rw [List.forall_mem_cons] at h
    have hflags : ∀ x ∈ lineup.flags, decide (x = '\n') = false := fun x hx =>
      decide_eq_false fun hs => Lineup.not_mem_flags h.1 (hs ▸ hx)
    have htext : toText (lineup :: grid) = lineup.flags ++ '\n' :: toText grid := by
      rw [toText, List.flatMap_cons, List.append_assoc]
      rfl
    rw [htext, Text.pieces_cons_of_forall_not hflags (by decide), ih h.2]
    rfl

/-- A grid is read from its text. -/
theorem ofText_toText : ofText grid.toText = some grid := by
  rw [ofText, pieces_toText h, List.dropLast_concat]
  exact mapM_map_eq_some fun lineup hl => Lineup.ofFlags_flags (h lineup hl)

/-- There are as many ends of lines in the text as there are lineups. -/
theorem count_toText : grid.toText.count '\n' = grid.length := by
  have hlen := Text.length_pieces (· = '\n') grid.toText
  rw [pieces_toText h, List.length_append, List.length_map] at hlen
  calc grid.toText.count '\n'
      = grid.toText.countP (· = '\n') := List.countP_congr fun x _ => by simp
    _ = grid.length := (Nat.succ.inj hlen).symm

end Grid

/-- The text of a grid is ended, if it has a line. -/
theorem Grid.getLast?_toText {grid : Grid} (h : grid ≠ []) : grid.toText.getLast? = some '\n' := by
  obtain ⟨before, lineup, rfl⟩ := (List.eq_nil_or_concat grid).resolve_left h
  simp [toText]

/-! ## Plans -/

namespace Plan

variable {catalogText ruleText : Text} {fallback : Bool} {plan : Plan}

/-- No version of a selection goes on behind its line; nor does a component,
    which has no equals sign either. -/
theorem not_mem_of_mem_selection (h : ofTexts catalogText ruleText fallback = .ok plan)
    {c : Text} {vs : List Text} (he : (c, vs) ∈ plan.selection.entries) :
    '=' ∉ c ∧ '\n' ∉ c ∧ ∀ v ∈ vs, '\n' ∉ v := by
  obtain ⟨hc, hr, hs, -⟩ := ofTexts_eq_ok_iff.1 h
  obtain ⟨candidates, hget, hn, -, rfl⟩ := (Selection.mem_entries_iff hs).1 he
  have hstated := RuleBook.legible_of_ofText hr _ (RuleBook.mem_entries_rulesOf hn)
  refine ⟨hstated.noEquals, fun hm => ?_, fun v hv hm => ?_⟩
  · exact absurd (hstated.noBreak _ hm) (by decide)
  · rcases Selection.mem_choice_iff.1 hv with ⟨hv, -⟩ | ⟨-, -, hv⟩
    · -- A candidate stands in an entry, which ends in front of a line feed.
      obtain ⟨entry, hentry, hi⟩ :=
        Catalog.exists_entry_of_mem_ofText hc (Roster.get?_eq_some_iff.1 hget) hv
      exact absurd (Text.sep_of_mem_pieces hentry (hi.subset hm)) (by decide)
    · -- A literal is a rule of a line.
      exact absurd (hstated.noEnd _ hv _ hm).2 (by decide)

/-- The lineups of a plan are legible if nothing that is selected has a space in
    it. -/
theorem legible_of_mem_grid (h : ofTexts catalogText ruleText fallback = .ok plan)
    (hs : ∀ e ∈ plan.selection.entries, ' ' ∉ e.1 ∧ ∀ v ∈ e.2, ' ' ∉ v) :
    ∀ lineup ∈ plan.grid, lineup.Legible := by
  intro lineup hl
  obtain ⟨-, -, -, hg⟩ := ofTexts_eq_ok_iff.1 h
  obtain ⟨⟨hn, -⟩, hg⟩ := Grid.ofSelection_eq_ok_iff.1 hg
  rw [hg, Grid.mem_spread, Lineup.takes_iff plan.selection.nodup] at hl
  obtain ⟨hk, hv⟩ := hl
  exact {
    ne_nil := by
      rintro rfl
      exact hn (List.map_eq_nil_iff.1 hk.symm)
    noEquals := fun p hp => by
      obtain ⟨vs, he, -⟩ := hv p hp
      exact (not_mem_of_mem_selection h he).1
    noSpace := fun p hp => by
      obtain ⟨vs, he, hm⟩ := hv p hp
      exact ⟨(hs _ he).1, (hs _ he).2 _ hm⟩
    noFeed := fun p hp => by
      obtain ⟨vs, he, hm⟩ := hv p hp
      obtain ⟨-, hc, hvs⟩ := not_mem_of_mem_selection h he
      exact ⟨hc, hvs _ hm⟩ }

/-- The grid of a plan is read back from its text, if nothing that is selected
    has a space in it. The text has a line for each lineup, and the last line is
    ended too. -/
theorem grid_read_back (h : (assemble catalogText ruleText fallback).result.1 = .ok plan)
    (hs : ∀ e ∈ plan.selection.entries, ' ' ∉ e.1 ∧ ∀ v ∈ e.2, ' ' ∉ v) :
    plan.grid.toText.count '\n' = plan.grid.length ∧
      plan.grid.toText.getLast? = some '\n' ∧
      (plan.grid.toText.pieces (· = '\n')).getLast? = some [] ∧
      Grid.ofText plan.grid.toText = some plan.grid := by
  rw [assemble_result] at h
  have hl := legible_of_mem_grid h hs
  have hn : plan.grid ≠ [] := by
    obtain ⟨-, -, -, hg⟩ := ofTexts_eq_ok_iff.1 h
    obtain ⟨⟨-, hv⟩, hg⟩ := Grid.ofSelection_eq_ok_iff.1 hg
    rw [hg, Ne, Grid.spread_eq_nil_iff]
    exact fun ⟨e, he, hnil⟩ => hv e he hnil
  refine ⟨Grid.count_toText hl, Grid.getLast?_toText hn, ?_, Grid.ofText_toText hl⟩
  rw [Grid.pieces_toText hl, List.getLast?_concat]

/-- Versions may have equals signs, colons, flags and ends of lines other than the
    line feed. -/
theorem grid_read_back_of_signs :
    ∃ plan, (assemble "a:1=2,-Db=3:4;b:1\r2".toList "b=*\na=*".toList false).result.1 = .ok plan ∧
      (∀ e ∈ plan.selection.entries, ' ' ∉ e.1 ∧ ∀ v ∈ e.2, ' ' ∉ v) ∧
      plan.grid.toText = "-Da=1=2 -Db=1\r2\n-Da=-Db=3:4 -Db=1\r2\n".toList ∧
      Grid.ofText plan.grid.toText = some plan.grid := by
  obtain ⟨plan, h, hs, ht⟩ :
      ∃ plan, (assemble "a:1=2,-Db=3:4;b:1\r2".toList "b=*\na=*".toList false).result.1 = .ok plan ∧
        (∀ e ∈ plan.selection.entries, ' ' ∉ e.1 ∧ ∀ v ∈ e.2, ' ' ∉ v) ∧
        plan.grid.toText = "-Da=1=2 -Db=1\r2\n-Da=-Db=3:4 -Db=1\r2\n".toList :=
    ⟨_, rfl, by decide, rfl⟩
  exact ⟨plan, h, hs, ht, (grid_read_back h hs).2.2.2⟩

end Plan

end TestGrid
