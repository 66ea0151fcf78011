import TestGrid.Proofs.LogFiles
import TestGrid.Proofs.Settled

/-!
# Calls of a journal

A program makes *calls* of its journal: it sets it up, and it asks for loggers by their
names (`Journal.Call`). The level and the log file of the last set-up are the *tuning* of
the journal, and every logger that is known is tuned to them.

If the log files can be opened, calls succeed. They make no directory, and what they
make of the journal does not depend on what is in the files: it is computed by
`Journal.after`, call by call (`Journal.turns_makeAll`).
-/

namespace TestGrid

open Files

/-- A path from the root without names `..`, as a log file is known by. -/
def Files.Path.absolute (p directory : Path) : Path := (p.seenFrom directory).normalized

/-- What loggers are tuned to: a level, and maybe a log file. -/
structure Tuning where
  level : Level
  file : Option Path
  deriving DecidableEq

namespace Tuning

variable (t : Tuning) (directory : Path)

/-- Handlers with one for the log file, unless they have it. -/
def attach (handlers : List Handler) : List Handler :=
  match t.file with
  | none => handlers
  | some file =>
    let log : Handler := .file (file.absolute directory)
    if log ∈ handlers then handlers else handlers ++ [log]

/-- A logger with the level and with a handler for the log file. -/
def apply (l : Logger) : Logger where
  level := t.level
  handlers := t.attach directory l.handlers

theorem mem_attach {handlers : List Handler} {a : Handler} :
    a ∈ t.attach directory handlers ↔
      a ∈ handlers ∨ ∃ file, t.file = some file ∧ a = .file (file.absolute directory) := by
  rw [attach]
  cases t.file with
  | none => simp
  | some file =>
    by_cases hm : Handler.file (file.absolute directory) ∈ handlers
    · simp only [if_pos hm, Option.some.injEq, exists_eq_left', iff_self_or]
      rintro rfl
      exact hm
    · simp [if_neg hm]

/-- Handlers are not attached to a log file twice. -/
theorem attach_attach (handlers : List Handler) :
    t.attach directory (t.attach directory handlers) = t.attach directory handlers := by
  have hmem : ∀ file, t.file = some file →
      .file (file.absolute directory) ∈ t.attach directory handlers := fun file hf =>
    (t.mem_attach directory).2 (.inr ⟨file, hf, rfl⟩)
  generalize t.attach directory handlers = attached at hmem ⊢
  rw [attach]
  cases hf : t.file with
  | none => rfl
  | some file => exact if_pos (hmem file hf)

theorem nodup_attach {handlers : List Handler} (h : handlers.Nodup) :
    (t.attach directory handlers).Nodup := by
  rw [attach]
  split
  · exact h
  · dsimp only
    split
    · exact h
    · next hm => exact List.concat_eq_append ▸ h.concat hm

theorem apply_apply (l : Logger) :
    t.apply directory (t.apply directory l) = t.apply directory l := by
  rw [apply, apply, attach_attach]

end Tuning

namespace Journal

/-! ## What calls make of a journal -/

/-- A call that a program makes of its journal. -/
inductive Call where
  | setUp (level : Level) (file : Option Path) (verbose : Bool)
  | get (name : Text)
  deriving DecidableEq

/-- Makes a call. -/
def Call.make : Call → Work Unit
  | setUp level file verbose => Journal.setUp level file verbose
  | get name => appear name

/-- Makes calls in turn. -/
def makeAll : List Call → Work Unit
  | [] => return
  | call :: calls => do
    call.make
    makeAll calls

/-- The log file that a call names. -/
def Call.file? : Call → Option Path
  | setUp _ file _ => file
  | get _ => none

/-- The tuning that a call asks for. -/
def Call.tuning? : Call → Option Tuning
  | setUp level file verbose => some ⟨if verbose then .debug else level, file⟩
  | get _ => none

/-- What the loggers of a journal are tuned to. -/
def tuning (j : Journal) : Tuning := ⟨j.level, j.file⟩

/-- The journal with the loggers of some names tuned. -/
def tuned (directory : Path) (j : Journal) (names : List Text) : Journal :=
  names.foldl (fun j name => j.update name (j.tuning.apply directory)) j

/-- The journal with a logger that answers to a name. -/
def entered (j : Journal) (name : Text) (l : Logger) : Journal :=
  { j with loggers := j.loggers.insert (Logger.nameFor name) l }

/-- The journal after a call. -/
def after (directory : Path) (j : Journal) : Call → Journal
  | .setUp level file verbose =>
    let j : Journal := { j with level := if verbose then .debug else level, file }
    j.tuned directory j.names
  | .get name =>
    if j.names.contains name then j
    else
      let l := j.tuning.apply directory ((j.logger? name).getD {}).onScreen
      { j.entered name l with names := j.names ++ [name] }

section

variable {j : Journal} {name : Text} {l : Logger}

theorem logger?_entered : (j.entered name l).logger? name = some l :=
  (Roster.get?_insert ..).trans (if_pos rfl)

/-- The logger that is entered last is the one that answers. -/
theorem entered_entered (l' : Logger) : (j.entered name l).entered name l' = j.entered name l' :=
  congrArg (fun loggers => { j with loggers }) (Roster.insert_insert ..)

theorem update_of_some (hl : j.logger? name = some l) (f : Logger → Logger) :
    j.update name f = j.entered name (f l) := by
  rw [update, hl]
  rfl

theorem update_of_none (hl : j.logger? name = none) (f : Logger → Logger) :
    j.update name f = j := by
  rw [update, hl]

end

end Journal

/-! ## Steps that succeed -/

/-- The step succeeds, makes the journal what is said, and fills the tree. -/
def Workspace.Turns (w : Workspace) (step : Work Unit) (j : Journal) : Prop :=
  ∃ tree, step.perform w = (.ok (), { w with journal := j, tree }) ∧ w.tree.Fills tree

namespace Workspace

variable {w : Workspace} {step next : Work Unit} {j j' : Journal}

theorem turns_pure : w.Turns (pure ()) w.journal := ⟨w.tree, rfl, .refl _⟩

theorem Turns.andThen (hs : w.Turns step j)
    (hn : ∀ tree, w.tree.Fills tree → Turns { w with journal := j, tree } next j') :
    w.Turns (do step; next) j' := by
  obtain ⟨tree, hp, hf⟩ := hs
  obtain ⟨tree', hp', hf'⟩ := hn tree hf
  exact ⟨tree', (Work.perform_bind_ok hp _).trans hp', hf.trans hf'⟩

theorem turns_change (f : Journal → Journal) : w.Turns (Journal.change f) (f w.journal) :=
  ⟨w.tree, rfl, .refl _⟩

/-- The log file that the journal of the workspace has, if any, can be opened. -/
def CanLog (w : Workspace) : Prop :=
  ∀ file, w.journal.file = some file → w.tree.Opens (file.absolute w.directory)

end Workspace

namespace Journal

open Workspace

variable {w : Workspace}

/-- Handlers are attached to the log file of the journal, if it can be opened. -/
theorem exists_perform_withLogFile (h : w.CanLog) (handlers : List Handler) :
    ∃ tree, (withLogFile handlers).perform w =
        (.ok (w.journal.tuning.attach w.directory handlers), { w with tree }) ∧
      w.tree.Fills tree := by
  cases hf : w.journal.file with
  | none =>
    refine ⟨w.tree, ?_, .refl _⟩
    rw [withLogFile, Work.perform_get_bind, hf, Tuning.attach, tuning, hf]
    rfl
  | some file =>
    let log : Handler := .file (file.absolute w.directory)
    have hp : (withLogFile handlers).perform w = (if log ∈ handlers then return handlers
        else do
          appendLog (file.absolute w.directory) .empty
          return handlers ++ [log] : Work _).perform w := by
      rw [withLogFile, Work.perform_get_bind, hf]
      rfl
    rw [hp, Tuning.attach, tuning, hf]
    dsimp only
    by_cases hm : log ∈ handlers
    · rw [if_pos hm, if_pos hm]
      exact ⟨w.tree, rfl, .refl _⟩
    · rw [if_neg hm, if_neg hm]
      have hs : (file.absolute w.directory).Straight := Path.straight_normalized _
      have ho := h file hf
      exact ⟨_, Work.perform_bind_ok (perform_appendLog hs ho .empty) _, Tree.fills_put ho hs _⟩

theorem turns_configure (h : w.CanLog) (name : Text) :
    w.Turns (configure name) (w.journal.update name (w.journal.tuning.apply w.directory)) := by
  cases hl : w.journal.logger? name with
  | none =>
    -- There is no logger to be changed.
    refine ⟨w.tree, ?_, .refl _⟩
    rw [configure, Work.perform_get_bind, perform_change_bind, update_of_none hl,
      Work.perform_get_bind, hl, update_of_none hl]
    rfl
  | some l =>
    let w₁ : Workspace := { w with
      journal := w.journal.entered name { l with level := w.journal.level } }
    have hcan : w₁.CanLog := h
    obtain ⟨tree, hp, hf⟩ := exists_perform_withLogFile hcan l.handlers
    refine ⟨tree, ?_, hf⟩
    rw [perform_configure hl, update_of_some hl, Work.perform_bind_ok hp]
    show (Except.ok (), { w₁ with journal := w₁.journal.update name _, tree }) = _
    rw [update_of_some logger?_entered, update_of_some hl, entered_entered]
    rfl

theorem turns_configureAll (h : w.CanLog) (names : List Text) :
    w.Turns (configureAll names) (w.journal.tuned w.directory names) := by
  induction names generalizing w with
  | nil => exact turns_pure
  | cons name names ih =>
    refine (turns_configure h name).andThen fun tree hf => ?_
    exact ih fun file hfile => (h file (update_file .. ▸ hfile)).fills hf

theorem turns_setUp {level : Level} {file? : Option Path} {verbose : Bool}
    (h : ∀ file, file? = some file → w.tree.Opens (file.absolute w.directory)) :
    w.Turns (setUp level file? verbose)
      (w.journal.after w.directory (.setUp level file? verbose)) := by
  let level' : Level := if verbose then .debug else level
  have hset : w.Turns (change fun j => { j with level := level', file := file? })
      { w.journal with level := level', file := file? } := turns_change _
  refine hset.andThen fun tree hf => ?_
  have hcan :
      CanLog { w with journal := { w.journal with level := level', file := file? }, tree } :=
    fun file hfile => (h file hfile).fills hf
  exact turns_configureAll hcan w.journal.names

/-- A logger that is made is on the screen and tuned before it is known. -/
theorem turns_appear (h : w.CanLog) (name : Text) :
    w.Turns (appear name) (w.journal.after w.directory (.get name)) := by
  by_cases hn : w.journal.names.contains name
  · refine ⟨w.tree, ?_, .refl _⟩
    rw [appear, Work.perform_get_bind, after]
    dsimp only
    rw [if_pos hn, if_pos hn]
    rfl
  · let l : Logger := ((w.journal.logger? name).getD {}).onScreen
    let l' := w.journal.tuning.apply w.directory l
    have hconfigured (tree : Tree) (hf : w.tree.Fills tree) :
        Turns { w with journal := w.journal.entered name l, tree } (configure name)
          (w.journal.entered name l') := by
      have hcan : CanLog { w with journal := w.journal.entered name l, tree } :=
        fun file hfile => (h file hfile).fills hf
      have hturns := turns_configure hcan name
      rw [update_of_some logger?_entered, entered_entered] at hturns
      exact hturns
    have hnamed (tree : Tree) :
        Turns { w with journal := w.journal.entered name l', tree }
          (change fun j => { j with names := j.names ++ [name] })
          { w.journal.entered name l' with names := w.journal.names ++ [name] } :=
      turns_change _
    have hturns : w.Turns (do
        change (·.entered name l)
        configure name
        change fun j => { j with names := j.names ++ [name] })
        { w.journal.entered name l' with names := w.journal.names ++ [name] } :=
      (turns_change _).andThen fun tree hf => (hconfigured tree hf).andThen fun tree _ =>
        hnamed tree
    obtain ⟨tree, ht, hf⟩ := hturns
    refine ⟨tree, ?_, hf⟩
    rw [appear, Work.perform_get_bind, after, if_neg hn]
    dsimp only
    rw [if_neg hn]
    exact ht

theorem turns_make {call : Call} (h : w.CanLog)
    (hc : ∀ file, call.file? = some file → w.tree.Opens (file.absolute w.directory)) :
    w.Turns call.make (w.journal.after w.directory call) := by
  cases call with
  | setUp level file verbose => exact turns_setUp hc
  | get name => exact turns_appear h name

theorem tuning_update (j : Journal) (name : Text) (f : Logger → Logger) :
    (j.update name f).tuning = j.tuning := by
  obtain ⟨_, h⟩ := exists_update_eq j name f
  rw [h]
  rfl

/-- Nothing but the loggers changes when they are tuned. -/
theorem exists_tuned_eq (directory : Path) (j : Journal) (names : List Text) :
    ∃ loggers, j.tuned directory names = { j with loggers } := by
  induction names generalizing j with
  | nil => exact ⟨j.loggers, rfl⟩
  | cons name names ih =>
    obtain ⟨_, hu⟩ := exists_update_eq j name (j.tuning.apply directory)
    obtain ⟨loggers, ht⟩ := ih (j.update name (j.tuning.apply directory))
    rw [hu] at ht
    exact ⟨loggers, (congrArg (tuned directory · names) hu).trans ht⟩

/-- A set-up gives the journal its tuning; to ask for a logger leaves it. -/
theorem tuning_after (directory : Path) (j : Journal) (call : Call) :
    (j.after directory call).tuning = call.tuning?.getD j.tuning := by
  cases call with
  | setUp level file verbose =>
    obtain ⟨_, h⟩ := exists_tuned_eq directory
      { j with level := if verbose then .debug else level, file } j.names
    exact congrArg tuning h
  | get name =>
    rw [after]
    split <;> rfl

/-- Calls succeed if all log files can be opened. -/
theorem turns_makeAll {calls : List Call} (h : w.CanLog)
    (hc : ∀ file ∈ calls.filterMap Call.file?, w.tree.Opens (file.absolute w.directory)) :
    w.Turns (makeAll calls) (calls.foldl (after w.directory) w.journal) := by
  induction calls generalizing w with
  | nil => exact turns_pure
  | cons call calls ih =>
    have hcall : ∀ file, call.file? = some file → w.tree.Opens (file.absolute w.directory) :=
      fun file hf => hc file (List.mem_filterMap.2 ⟨call, List.mem_cons_self, hf⟩)
    refine (turns_make h hcall).andThen fun tree hfill => ?_
    have hcan : CanLog { w with journal := w.journal.after w.directory call, tree } := by
      intro file hf
      have htuning := congrArg Tuning.file (tuning_after w.directory w.journal call)
      refine Tree.Opens.fills ?_ hfill
      cases call with
      | setUp level file' verbose => exact hcall file (htuning.symm.trans hf)
      | get name => exact h file (htuning.symm.trans hf)
    refine ih hcan fun file hf => (hc file ?_).fills hfill
    obtain ⟨call', hm, hf⟩ := List.mem_filterMap.1 hf
    exact List.mem_filterMap.2 ⟨call', List.mem_cons_of_mem _ hm, hf⟩

/-! ## Loggers after a call -/

theorem get?_update (j : Journal) (name key : Text) (f : Logger → Logger) :
    (j.update name f).loggers.get? key =
      if key = Logger.nameFor name then (j.loggers.get? key).map f else j.loggers.get? key := by
  cases hl : j.logger? name with
  | none =>
    rw [update_of_none hl]
    split
    · next he => rw [he, show j.loggers.get? (Logger.nameFor name) = none from hl]; rfl
    · rfl
  | some l =>
    rw [update_of_some hl, entered, Roster.get?_insert]
    split
    · next he => rw [he, show j.loggers.get? (Logger.nameFor name) = some l from hl]; rfl
    · rfl

/-- The loggers that answer to the names are tuned, and no other ones. -/
theorem get?_tuned (directory : Path) (j : Journal) (names : List Text) (key : Text) :
    (j.tuned directory names).loggers.get? key =
      if key ∈ names.map Logger.nameFor then
        (j.loggers.get? key).map (j.tuning.apply directory)
      else j.loggers.get? key := by
  induction names generalizing j with
  | nil => rfl
  | cons name names ih =>
    refine (ih _).trans ?_
    rw [tuning_update, get?_update]
    simp only [List.map_cons, List.mem_cons]
    by_cases he : key = Logger.nameFor name
    · -- To tune a logger again changes nothing.
      have htwice : (j.tuning.apply directory) ∘ (j.tuning.apply directory) =
          j.tuning.apply directory := funext fun l => j.tuning.apply_apply directory l
      simp only [he, true_or, if_true, Option.map_map, htwice, ite_self]
    · simp only [he, false_or, if_false]

end Journal

end TestGrid
