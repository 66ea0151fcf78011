import TestGrid.Proofs.Agreement
import TestGrid.Proofs.Outcome

/-!
# What generating a grid does to the files

A run that keeps no log file and is given all that it needs has one of three
ends, and in each of them it is known what has become of the files
(`Command.generate_stores_or_leaves`):

* the texts have no plan: the run ends with the status of the category of the
  fault, and the tree is left as it was, directories included, for the plan is
  made before the path for its grid is looked at;
* they have one, and the grid can be stored: the run ends with the status 0, the
  file at the path has the bytes of the grid, and no other file has changed;
* they have one, and the grid cannot be stored: the run ends with the status 1.
  Directories may have been made, but no file has changed.

The file of rules is read with its ends of line unified. This is of no
consequence for the plan, for the lines of the text stay the same
(`Text.lines_unifyBreaks`).
-/

namespace TestGrid

open Fallible Files Work Storage

/-! ## Unified ends of line -/

/-- Unifying the ends of its lines changes no line of a text. -/
theorem Text.lines_unifyBreaks (t : Text) : t.unifyBreaks.lines = t.lines := by
  fun_induction unifyBreaks t with
  | case1 => rfl
  | case2 r ih =>
    show [] :: lines (unifyBreaks r) = [] :: lines r
    rw [ih]
  | case3 c r hr ih =>
    rw [lines.eq_3 c r hr]
    by_cases hc : c = '\r'
    · -- The carriage return ends the line, no line feed being behind it.
      rw [if_pos hc, hc]
      show [] :: lines (unifyBreaks r) = [] :: lines r
      rw [ih]
    · rw [if_neg hc, lines.eq_3 c _ fun _ h => absurd h hc, ih]

theorem RuleBook.ofText_unifyBreaks (t : Text) : ofText t.unifyBreaks = ofText t := by
  rw [ofText, ofText, statementLines, statementLines, Text.lines_unifyBreaks]

/-- A plan does not depend on the ends of line in the text of its rule book. -/
theorem Plan.ofTexts_unifyBreaks (catalogText t : Text) (fallback : Bool) :
    ofTexts catalogText t.unifyBreaks fallback = ofTexts catalogText t fallback := by
  rw [ofTexts, ofTexts, RuleBook.ofText_unifyBreaks]

namespace Command

/-- A run that keeps no log file, with candidates and paths that say something, a
    file of rules that holds a text, and no run of digits too long for a number:

    * if the texts have no plan, it ends with the status of the fault's category,
      and the tree is as it was;
    * if they have one and the grid can be stored at the path, it ends with the
      status 0, the file there holds the bytes of the grid, and all other files are
      as they were;
    * if they have one and the grid cannot be stored, it ends with the status 1,
      and all files are as they were. -/
theorem generate_stores_or_leaves {w : Workspace} (hw : w.journal.OnScreen)
    {candidates t : Text} {rules output : Path} (hc : Settings.saysNothing candidates = false)
    (hr : Settings.saysNothing rules.toText = false) (ht : HasText w.directory w.tree rules t)
    (ho : Settings.saysNothing output.toText = false) (hcount : candidates.Countable)
    (htcount : t.Countable) (fallback verbose performance : Bool) :
    let made := (Plan.assemble candidates t fallback).result.1
    let ended := (generate
      ⟨⟨some candidates, some rules, some output, fallback⟩, verbose, none, performance⟩).perform w
    (∀ f, made = .error f →
      ∃ k, f.category? = some k ∧ ended.1 = .ok k.exitStatus ∧ ended.2.tree = w.tree) ∧
    (∀ plan, made = .ok plan → CanStore w.directory w.tree output →
      ended.1 = .ok 0 ∧
        Stores w.directory w.tree ended.2.tree output (Text.encode plan.grid.toText)) ∧
    (∀ plan, made = .ok plan → ¬CanStore w.directory w.tree output →
      exitStatus ended.1 = 1 ∧ w.tree.SameFiles ended.2.tree) := by
  intro made ended
  have hstands : w.Stands w.directory w.tree := ⟨rfl, rfl, hw⟩
  have hmade : made = Plan.ofTexts candidates t fallback := Plan.assemble_result ..
  have hunified := Plan.ofTexts_unifyBreaks candidates t fallback
  rw [hmade]
  refine ⟨fun f hp => ?_, fun plan hp hs => ?_, fun plan hp hs => ?_⟩
  · obtain ⟨hended, htree⟩ :=
      reads_generate hc hr ht ho (hunified.trans hp) verbose performance w hstands
    rcases Plan.category_of_ofTexts hp with ⟨k, hk⟩ | ⟨n, -, hn, hrun⟩
    · refine ⟨k, hk, hended.trans ?_, htree.tree⟩
      rw [answered, Fault.exitStatus?, hk]
      rfl
    · exact absurd (hrun.elim (hcount n) (htcount n)) (Nat.not_le_of_lt hn)
  · obtain ⟨tree', hlead, hstores⟩ :=
      exists_leads_generate hc hr ht ho (hunified.trans hp) hs verbose performance
    obtain ⟨hended, htree⟩ := hlead w hstands
    exact ⟨hended, htree.tree.symm ▸ hstores⟩
  · obtain ⟨tree', outcome, hlead, hstatus, hsame⟩ :=
      exists_leads_generate_error hc hr ht ho (hunified.trans hp) hs verbose performance
    obtain ⟨hended, htree⟩ := hlead w hstands
    exact ⟨hended ▸ hstatus, htree.tree.symm ▸ hsame⟩

/-- At a desk with the rules `a=>=1.0`, a candidate that is too old has no plan and
    nothing is changed; the grid of a newer one is stored in a new directory, but
    not below the file of the rules. -/
theorem generate_stores_or_leaves_at_desk :
    let desk := deskWith "a=>=1.0".toList
    let run (candidates output : String) :=
      (generate ⟨⟨some candidates.toList, some (.ofText "r.conf".toList),
        some (.ofText output.toList), true⟩, false, none, false⟩).perform desk
    ((run "a:0.5" "m.txt").1 = .ok 2 ∧ (run "a:0.5" "m.txt").2.tree = desk.tree) ∧
    ((run "a:2.0" "out/m.txt").1 = .ok 0 ∧
      Stores desk.directory desk.tree (run "a:2.0" "out/m.txt").2.tree
        (.ofText "out/m.txt".toList) (Text.encode "-Da=2.0\n".toList)) ∧
    (exitStatus (run "a:2.0" "r.conf/m.txt").1 = 1 ∧
      desk.tree.SameFiles (run "a:2.0" "r.conf/m.txt").2.tree) := by
  intro desk run
  have hends (candidates output : String) (hc : Settings.saysNothing candidates.toList = false)
      (ho : Settings.saysNothing (Path.ofText output.toList).toText = false)
      (hlength : candidates.toList.length = 5) :=
    generate_stores_or_leaves (w := desk) Journal.onScreen_fresh hc rfl
      (ready_deskWith "a=>=1.0".toList).rules_held ho
      (Text.countable_of_length_le (hlength ▸ by decide))
      (Text.countable_of_length_le (by decide)) true false false
  obtain ⟨f, hf, hcategory⟩ :
      ∃ f, (Plan.assemble "a:0.5".toList "a=>=1.0".toList true).result.1 = .error f ∧
        f.category? = some .unmatched := ⟨_, rfl, rfl⟩
  obtain ⟨plan, hp, hgrid⟩ :
      ∃ plan, (Plan.assemble "a:2.0".toList "a=>=1.0".toList true).result.1 = .ok plan ∧
        plan.grid.toText = "-Da=2.0\n".toList := ⟨_, rfl, rfl⟩
  have hcan : CanStore desk.directory desk.tree (.ofText "out/m.txt".toList) :=
    ⟨rfl, _, _, rfl, rfl⟩
  have hcannot : ¬CanStore desk.directory desk.tree (.ofText "r.conf/m.txt".toList) := by
    rintro ⟨-, _, _, hmade, -⟩
    cases hmade
  dsimp only [run]
  refine ⟨?_, ?_, ?_⟩
  · obtain ⟨k, hk, hended, htree⟩ := (hends "a:0.5" "m.txt" rfl rfl rfl).1 f hf
    obtain rfl : Category.unmatched = k := Option.some.inj (hcategory.symm.trans hk)
    exact ⟨hended, htree⟩
  · rw [← hgrid]
    exact (hends "a:2.0" "out/m.txt" rfl rfl rfl).2.1 plan hp hcan
  · exact (hends "a:2.0" "r.conf/m.txt" rfl rfl rfl).2.2 plan hp hcannot

end Command

end TestGrid
