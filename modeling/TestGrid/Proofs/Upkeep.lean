import TestGrid.Proofs.Loggers

/-!
# Settings that reach every logger

However often a journal is set up and in whatever order its loggers are asked for, every
logger that is known upholds the settings of the last set-up: it has the level, it has the
screen once, and it has each of its log files once, the one of the last set-up among them
(`Logger.Upholds`).

So a record is shown once, and its line is added once for each log file
(`Workspace.Logs`), unless it is too light. Log files are told apart by their absolute
paths: `//x.log` is another one than `/x.log`, though both lead to the same place, and
then the line is added there twice.
-/

namespace TestGrid

open Files

/-- The logger has the settings, each of them once. -/
structure Logger.Upholds (l : Logger) (t : Tuning) (directory : Path) : Prop where
  level : l.level = t.level
  screen : l.handlers.count .screen = 1
  files : l.files.Nodup
  current : ∀ file, t.file = some file → l.files.count (file.absolute directory) = 1

/-- The places that the log files of a logger lead to. -/
def Logger.places (l : Logger) : List Location := l.files.map Path.parts

/-- The step shows a record once, and adds its line to what is at a place as often as the place
    is listed. -/
def Workspace.Logs (w : Workspace) (step : Work Unit) (r : Record) (places : List Location) :
    Prop :=
  ∃ tree, step.perform w = (.ok (), { w with tree, records := w.records ++ [r] }) ∧
    ∀ place, tree.content place = Journal.withLines (w.tree.content place)
      (Text.encode (Journal.line w.gauge.moment r)) (places.count place)

theorem Logger.mem_files {l : Logger} {p : Path} : p ∈ l.files ↔ .file p ∈ l.handlers := by
  rw [files, List.mem_filterMap]
  constructor
  · rintro ⟨a, hm, ha⟩
    cases a with
    | screen => cases ha
    | file p' =>
      cases ha
      exact hm
  · exact fun hm => ⟨_, hm, rfl⟩

/-- No log file is named twice if no handler stands twice. -/
theorem Logger.nodup_files {l : Logger} (h : l.handlers.Nodup) : l.files.Nodup := by
  refine h.filterMap fun a a' p ha ha' => ?_
  cases a <;> cases a' <;> cases ha <;> cases ha'
  rfl

theorem Logger.filterMap_place? (l : Logger) : l.handlers.filterMap Handler.place? = l.places := by
  rw [places, files, List.map_filterMap]
  refine List.filterMap_congr fun a _ => ?_
  cases a <;> rfl

namespace Journal

variable {w : Workspace} {calls : List Call} {key name : Text} {l : Logger} {level : Level}

/-! ## Telling a record -/

/-- A logger that is known is not made again. -/
theorem perform_appear (hn : name ∈ w.journal.names) : (appear name).perform w = (.ok (), w) := by
  rw [appear, Work.perform_get_bind]
  dsimp only
  rw [if_pos (List.contains_iff_mem.2 hn)]
  rfl

theorem perform_tell (hn : name ∈ w.journal.names) (hl : w.journal.logger? name = some l)
    (message : String) : (tell level name message).perform w =
      (if w.journal.keeps name level then
        handleAll ⟨level, Logger.nameFor name, message⟩ l.handlers
      else return : Work Unit).perform w := by
  rw [tell, Work.perform_bind_ok (perform_appear hn), Work.perform_get_bind]
  dsimp only
  rw [hl]

/-- A record that is not too light is taken by all handlers of its logger. -/
theorem logs_tell (hn : name ∈ w.journal.names) (hl : w.journal.logger? name = some l)
    (hk : w.journal.keeps name level) (hs : l.handlers.count .screen = 1)
    (hr : ∀ a ∈ l.handlers, a.Ready w.tree) (message : String) :
    w.Logs (tell level name message) ⟨level, Logger.nameFor name, message⟩ l.places := by
  obtain ⟨tree, hp, -, hc⟩ :=
    exists_perform_handleAll ⟨level, Logger.nameFor name, message⟩ hr
  refine ⟨tree, ?_, fun place => l.filterMap_place? ▸ hc place⟩
  rw [perform_tell hn hl, if_pos hk, hp, hs, List.replicate_one]

/-- A record that is too light is taken by none. -/
theorem perform_tell_of_light (hn : name ∈ w.journal.names)
    (hl : w.journal.logger? name = some l) (hk : ¬w.journal.keeps name level) (message : String) :
    (tell level name message).perform w = (.ok (), w) := by
  rw [perform_tell hn hl, if_neg hk]
  rfl

/-! ## After calls -/

theorem ServesOnce.upholds {directory : Path} (hlevel : l.level = (inForce calls).level)
    (ha : Asked calls key) (h : ServesOnce directory (toldOf key calls) l.handlers) :
    l.Upholds (inForce calls) directory where
  level := hlevel
  screen := List.count_eq_one_of_mem h.nodup h.screen
  files := Logger.nodup_files h.nodup
  current file hf := by
    refine List.count_eq_one_of_mem (Logger.nodup_files h.nodup) (Logger.mem_files.2 ?_)
    exact (h.mem_iff _).2 ⟨file, mem_toldOf_of_inForce ha hf, rfl⟩

/-- All loggers that were asked for keep the same records. -/
theorem Comes.keeps_iff {directory : Path} {j : Journal} (h : Comes directory calls j)
    (ha : Asked calls (Logger.nameFor name)) (level : Level) :
    j.keeps name level ↔ (floor calls).weight ≤ level.weight := by
  rw [keeps, h.threshold_eq ha, decide_eq_true_iff]

/-- The opening calls set nothing up. -/
theorem inForce_opening (calls : List Call) : inForce (opening ++ calls) = inForce calls := rfl

theorem named_opening (calls : List Call) :
    (opening ++ calls).filterMap Call.file? = calls.filterMap Call.file? := rfl

/-- The opening calls do not ask for the root. -/
theorem floor_opening (calls : List Call) : floor (opening ++ calls) = floor calls := by
  have hroot : Asked (opening ++ calls) Logger.root ↔ Asked calls Logger.root := by
    rw [Asked, opening, List.cons_append, List.cons_append, List.exists_mem_cons_iff,
      List.exists_mem_cons_iff]
    exact (or_iff_right (by decide)).trans (or_iff_right (by decide))
  simp only [floor, inForce_opening, hroot]

/-- Calls of a fresh journal succeed if their log files can be opened. -/
theorem turns_makeAll_of_fresh (hj : w.journal = .fresh)
    (ho : ∀ file ∈ calls.filterMap Call.file?, w.tree.Opens (file.absolute w.directory)) :
    w.Turns (makeAll calls) ((opening ++ calls).foldl (after w.directory) bare) := by
  have hcan : w.CanLog := by
    rw [Workspace.CanLog, hj]
    exact fun _ hf => nomatch hf
  rw [List.foldl_append, foldl_opening, ← hj]
  exact turns_makeAll hcan ho

/-- The log files of a logger can be opened if all that were named can be. -/
theorem ServesOnce.ready {directory : Path} {tree : Tree}
    (h : ServesOnce directory (toldOf key calls) l.handlers)
    (ho : ∀ file ∈ calls.filterMap Call.file?, tree.Opens (file.absolute directory)) :
    ∀ a ∈ l.handlers, a.Ready tree := by
  intro a ha
  cases a with
  | screen => trivial
  | file p =>
    obtain ⟨file, hm, rfl⟩ := (h.mem_iff p).1 ha
    exact ⟨Path.straight_normalized _, ho file (mem_filterMap_of_mem_toldOf hm)⟩

/-- A place is led to once if no other absolute path leads there. -/
theorem ServesOnce.count_places {directory : Path} {files : List Path} {file : Path}
    (h : ServesOnce directory files l.handlers) (hm : file ∈ files)
    (ho : ∀ file' ∈ files, (file'.absolute directory).parts = (file.absolute directory).parts →
      file'.absolute directory = file.absolute directory) :
    l.places.count (file.absolute directory).parts = 1 := by
  have hfile : file.absolute directory ∈ l.files :=
    Logger.mem_files.2 ((h.mem_iff _).2 ⟨file, hm, rfl⟩)
  have honly : ∀ p ∈ l.files, (p.parts == (file.absolute directory).parts) = true ↔
      (p == file.absolute directory) = true := by
    intro p hp
    obtain ⟨file', hm', rfl⟩ := (h.mem_iff p).1 (Logger.mem_files.1 hp)
    rw [beq_iff_eq, beq_iff_eq]
    exact ⟨ho file' hm', congrArg Path.parts⟩
  rw [Logger.places, List.count_eq_countP, List.countP_map, Function.comp_def,
    List.countP_congr honly]
  exact List.count_eq_one_of_mem (Logger.nodup_files h.nodup) hfile

/-- Whatever calls a program makes of a fresh journal, the loggers that were asked for are
    known, and all of them uphold the settings of the last set-up, each once. A record from
    the level on is shown once, and its line is added once for each log file, so it stands in
    the current one once, unless another absolute path that was named leads there too. -/
theorem loggers_uphold_settings (hj : w.journal = .fresh)
    (ho : ∀ file ∈ calls.filterMap Call.file?, w.tree.Opens (file.absolute w.directory)) :
    ∃ w', (makeAll calls).perform w = (.ok (), w') ∧
      (∀ name, name ∈ w'.journal.names ↔ name ∈ fresh.names ∨ .get name ∈ calls) ∧
      ∀ name ∈ w'.journal.names, ∃ l, w'.journal.logger? name = some l ∧
        l.Upholds (inForce calls) w.directory ∧
        (∀ level message, if (floor calls).weight ≤ level.weight then
            w'.Logs (tell level name message) ⟨level, Logger.nameFor name, message⟩ l.places
          else (tell level name message).perform w' = (.ok (), w')) ∧
        ∀ file, (inForce calls).file = some file →
          (∀ file' ∈ calls.filterMap Call.file?,
            (file'.absolute w.directory).parts = (file.absolute w.directory).parts →
              file'.absolute w.directory = file.absolute w.directory) →
          l.places.count (file.absolute w.directory).parts = 1 := by
  obtain ⟨tree, hp, hf⟩ := turns_makeAll_of_fresh hj ho
  have hcomes := comes_foldl w.directory (opening ++ calls)
  have ho' : ∀ file ∈ (opening ++ calls).filterMap Call.file?,
      tree.Opens (file.absolute w.directory) := fun file hm => (ho file hm).fills hf
  refine ⟨_, hp, fun name => ?_, fun name hn => ?_⟩
  · exact (hcomes.names name).trans (by simp [opening, fresh, or_assoc])
  · have ha : Asked (opening ++ calls) (Logger.nameFor name) :=
      asked_iff_exists_get.2 ⟨name, (hcomes.names name).1 hn, rfl⟩
    obtain ⟨l, hl, hlevel, hs⟩ := hcomes.known _ ha
    have hupholds : l.Upholds (inForce (opening ++ calls)) w.directory := hs.upholds hlevel ha
    refine ⟨l, hl, hupholds, fun level message => ?_, fun file hfile hother => ?_⟩
    · have hk := hcomes.keeps_iff ha level
      rw [floor_opening] at hk
      split
      · next h => exact logs_tell hn hl (hk.2 h) hupholds.screen (hs.ready ho') message
      · next h => exact perform_tell_of_light hn hl (mt hk.1 h) message
    · refine hs.count_places (mem_toldOf_of_inForce ha hfile) fun file' hm => hother file' ?_
      exact named_opening calls ▸ mem_filterMap_of_mem_toldOf hm

/-- A workspace in the root directory, with no files. -/
def blank : Workspace where
  directory := ⟨.root, []⟩
  tree := .empty
  gauge := ⟨[], [], []⟩

/-- A logger that comes between two set-ups has the level of the second one, and its records
    once in the log file, which was named in two ways. -/
theorem settings_of_late_logger :
    let calls : List Call := [.setUp .error (some (.ofText "run.log".toList)) false,
      .get "X".toList, .setUp .error (some (.ofText "/logs/../run.log".toList)) true]
    ∃ w', (makeAll calls).perform blank = (.ok (), w') ∧
      ∃ l, w'.journal.logger? "X".toList = some l ∧ l.level = .debug ∧
        w'.Logs (tell .debug "X".toList "said") ⟨.debug, "X".toList, "said"⟩ l.places ∧
        l.places.count ["run.log".toList] = 1 := by
  intro calls
  have ho : ∀ file ∈ calls.filterMap Call.file?,
      blank.tree.Opens (file.absolute blank.directory) :=
    List.forall_mem_cons.2 ⟨⟨rfl, _, rfl⟩, List.forall_mem_singleton.2 ⟨rfl, _, rfl⟩⟩
  obtain ⟨w', hp, hn, hl⟩ := @loggers_uphold_settings blank calls rfl ho
  obtain ⟨l, hl, hu, ht, hc⟩ := hl "X".toList ((hn _).2 (.inr (by decide)))
  refine ⟨w', hp, l, hl, hu.level, ?_, hc _ rfl (by decide)⟩
  have ht := ht .debug "said"
  rw [if_pos (by decide)] at ht
  exact ht

/-- A record of the command line is lost if the level is unset, for then the root decides; and
    its line is added twice to a log file that was named with one slash and with two. -/
theorem records_lost_or_doubled :
    let lost : List Call := [.setUp .unset (some (.ofText "run.log".toList)) false]
    let doubled : List Call := [.setUp .info (some (.ofText "/run.log".toList)) false,
      .setUp .info (some (.ofText "//run.log".toList)) false]
    (∃ w', (makeAll lost).perform blank = (.ok (), w') ∧ Speaker.commandLine ∈ w'.journal.names ∧
      (inForce lost).level.weight ≤ Level.info.weight ∧
      (tell .info Speaker.commandLine "said").perform w' = (.ok (), w')) ∧
    ∃ w', (makeAll doubled).perform blank = (.ok (), w') ∧
      Speaker.commandLine ∈ w'.journal.names ∧
      ∃ tree records, (tell .info Speaker.commandLine "said").perform w' =
          (.ok (), { w' with tree, records }) ∧
        tree.content ["run.log".toList] = withLines (w'.tree.content ["run.log".toList])
          (Text.encode " - CLI - INFO - said\n".toList) 2 := by
  intro lost doubled
  have hasked (calls : List Call) :
      Asked (opening ++ calls) (Logger.nameFor Speaker.commandLine) :=
    ⟨_, List.mem_append_left _ (List.mem_cons_of_mem _ List.mem_cons_self), rfl⟩
  constructor
  · have ho : ∀ file ∈ lost.filterMap Call.file?,
        blank.tree.Opens (file.absolute blank.directory) :=
      List.forall_mem_singleton.2 ⟨rfl, _, rfl⟩
    obtain ⟨tree, hp, -⟩ := @turns_makeAll_of_fresh blank lost rfl ho
    have hcomes := comes_foldl blank.directory (opening ++ lost)
    have hn := (hcomes.names Speaker.commandLine).2 (by decide)
    have hk := (hcomes.keeps_iff (hasked lost) .info).not.2 (by decide)
    exact ⟨_, hp, hn, by decide, perform_tell_of_light hn rfl hk "said"⟩
  · have ho : ∀ file ∈ doubled.filterMap Call.file?,
        blank.tree.Opens (file.absolute blank.directory) :=
      List.forall_mem_cons.2 ⟨⟨rfl, _, rfl⟩, List.forall_mem_singleton.2 ⟨rfl, _, rfl⟩⟩
    let log (anchor : Anchor) : Handler := .file ⟨anchor, ["run.log".toList]⟩
    let l : Logger := ⟨.info, [.screen, log .root, log .doubleRoot]⟩
    obtain ⟨tree, hp, hf⟩ := @turns_makeAll_of_fresh blank doubled rfl ho
    have hcomes := comes_foldl blank.directory (opening ++ doubled)
    have hn := (hcomes.names Speaker.commandLine).2 (by decide)
    have hk := (hcomes.keeps_iff (hasked doubled) .info).2 (by decide)
    obtain ⟨l', hl', -, hs⟩ := hcomes.known _ (hasked doubled)
    obtain rfl : l = l' := Option.some.inj hl'
    have hr := hs.ready fun file hm => (ho file hm).fills hf
    obtain ⟨tree', ht, hc⟩ :=
      logs_tell (w := { blank with journal := _, tree }) hn hl' hk rfl hr "said"
    exact ⟨_, hp, hn, tree', _, ht, hc _⟩

end Journal

end TestGrid
