import TestGrid.Proofs.Upkeep

/-!
# Where loggers write to

A logger writes to all log files that it was told of, for those that were attached stay
attached. So where it writes to depends on when it was first asked for: the loggers that are
there from the start write to every log file that was ever named, and a later one does not
write to those of the set-ups before, except the one in force.

All loggers write to the log file of the last set-up and to no other one if and only if
every log file that was named is at the same place as this one
(`Journal.destinations_current_iff`).
-/

namespace TestGrid

open Files

namespace Journal

variable {w : Workspace} {calls : List Call} {name : Text} {place : Location}

/-- The places that the logger of a name writes to. -/
def placesOf (j : Journal) (name : Text) : List Location :=
  ((j.logger? name).map Logger.places).getD []

/-- A logger writes to the log files that it was told of. -/
theorem Comes.mem_placesOf {directory : Path} {j : Journal} (h : Comes directory calls j)
    (hn : name ∈ j.names) : place ∈ j.placesOf name ↔
      ∃ file ∈ toldOf (Logger.nameFor name) calls, (file.absolute directory).parts = place := by
  have ha : Asked calls (Logger.nameFor name) :=
    asked_iff_exists_get.2 ⟨name, (h.names name).1 hn, rfl⟩
  obtain ⟨l, hl, -, hs⟩ := h.known _ ha
  have hplaces : j.placesOf name = l.places := by
    rw [placesOf, show j.logger? name = some l from hl]
    rfl
  rw [hplaces, Logger.places, List.mem_map]
  constructor
  · rintro ⟨p, hp, rfl⟩
    obtain ⟨file, hm, rfl⟩ := (hs.mem_iff p).1 (Logger.mem_files.1 hp)
    exact ⟨file, hm, rfl⟩
  · rintro ⟨file, hm, rfl⟩
    exact ⟨_, Logger.mem_files.2 ((hs.mem_iff _).2 ⟨file, hm, rfl⟩), rfl⟩

/-- The command line is there from the start, and is told of every log file. -/
theorem toldOf_commandLine (calls : List Call) :
    toldOf (Logger.nameFor Speaker.commandLine) (opening ++ calls) =
      calls.filterMap Call.file? := rfl

/-- Whatever calls a program makes of a fresh journal, each logger writes to the log files of
    the set-ups since it was first asked for and to the one in force then. So all of them
    write to the log file of the last set-up, and to no other one, if and only if all log files
    that were named are at its place. -/
theorem destinations_current_iff (hj : w.journal = .fresh)
    (ho : ∀ file ∈ calls.filterMap Call.file?, w.tree.Opens (file.absolute w.directory)) :
    ∃ w', (makeAll calls).perform w = (.ok (), w') ∧
      (∀ name ∈ w'.journal.names, ∀ place, place ∈ w'.journal.placesOf name ↔
        ∃ file ∈ toldOf (Logger.nameFor name) (opening ++ calls),
          (file.absolute w.directory).parts = place) ∧
      ((∀ name ∈ w'.journal.names, ∀ place, place ∈ w'.journal.placesOf name ↔
          ∃ file, (inForce calls).file = some file ∧ (file.absolute w.directory).parts = place) ↔
        ∀ file ∈ calls.filterMap Call.file?, ∃ last, (inForce calls).file = some last ∧
          (last.absolute w.directory).parts = (file.absolute w.directory).parts) := by
  obtain ⟨tree, hp, -⟩ := turns_makeAll_of_fresh hj ho
  have hcomes := comes_foldl w.directory (opening ++ calls)
  refine ⟨_, hp, fun name hn place => hcomes.mem_placesOf hn, ?_⟩
  constructor
  · -- The command line writes to every log file that was named.
    intro hcurrent file hm
    rw [← toldOf_commandLine] at hm
    have hn := (hcomes.names Speaker.commandLine).2
      (List.mem_append_left _ (List.mem_cons_of_mem _ List.mem_cons_self))
    exact (hcurrent _ hn _).1 ((hcomes.mem_placesOf hn).2 ⟨file, hm, rfl⟩)
  · intro hnamed name hn place
    rw [hcomes.mem_placesOf hn]
    constructor
    · rintro ⟨file, hm, rfl⟩
      exact hnamed file (named_opening calls ▸ mem_filterMap_of_mem_toldOf hm)
    · rintro ⟨file, hf, rfl⟩
      have ha : Asked (opening ++ calls) (Logger.nameFor name) :=
        asked_iff_exists_get.2 ⟨name, (hcomes.names name).1 hn, rfl⟩
      exact ⟨file, mem_toldOf_of_inForce ha hf, rfl⟩

/-- Two set-ups with the same log file, named in two ways, let all loggers write to it alone. -/
theorem destination_of_one_file :
    let calls : List Call := [.setUp .info (some (.ofText "run.log".toList)) false,
      .get "X".toList, .setUp .error (some (.ofText "logs/../run.log".toList)) false]
    ∃ w', (makeAll calls).perform blank = (.ok (), w') ∧
      ∀ name ∈ w'.journal.names, ∀ place, place ∈ w'.journal.placesOf name ↔
        place = ["run.log".toList] := by
  intro calls
  have ho : ∀ file ∈ calls.filterMap Call.file?,
      blank.tree.Opens (file.absolute blank.directory) :=
    List.forall_mem_cons.2 ⟨⟨rfl, _, rfl⟩, List.forall_mem_singleton.2 ⟨rfl, _, rfl⟩⟩
  obtain ⟨w', hp, -, hiff⟩ := @destinations_current_iff blank calls rfl ho
  have hcurrent := hiff.2 (by decide)
  refine ⟨w', hp, fun name hn place => (hcurrent name hn place).trans ?_⟩
  constructor
  · rintro ⟨file, hf, rfl⟩
    cases hf
    rfl
  · rintro rfl
    exact ⟨_, rfl, rfl⟩

/-- The command line goes on to write to the log file of the first set-up, and a logger that
    is asked for behind the second one does not. -/
theorem destinations_differ :
    let calls : List Call := [.setUp .info (some (.ofText "a.log".toList)) false,
      .setUp .info (some (.ofText "b.log".toList)) false, .get "X".toList]
    ∃ w', (makeAll calls).perform blank = (.ok (), w') ∧
      w'.journal.placesOf Speaker.commandLine = [["a.log".toList], ["b.log".toList]] ∧
      w'.journal.placesOf "X".toList = [["b.log".toList]] := by
  intro calls
  have ho : ∀ file ∈ calls.filterMap Call.file?,
      blank.tree.Opens (file.absolute blank.directory) :=
    List.forall_mem_cons.2 ⟨⟨rfl, _, rfl⟩, List.forall_mem_singleton.2 ⟨rfl, _, rfl⟩⟩
  obtain ⟨tree, hp, -⟩ := @turns_makeAll_of_fresh blank calls rfl ho
  exact ⟨_, hp, rfl, rfl⟩

end Journal

end TestGrid
