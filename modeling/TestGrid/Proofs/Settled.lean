import TestGrid.Journal.Keeping
import TestGrid.Proofs.Roster
import TestGrid.Proofs.Tree
import TestGrid.Proofs.Work

/-!
# Keeping a journal in log files

A set-up may fail, for the log file cannot be opened, and then it is answered
for by no command (`Journal.setUp_cases`). Behind a set-up that has succeeded
the workspace is *settled*: every handler takes every record, the log file of
the journal can be opened, and the command line shows errors once
(`Workspace.Settled`). From then on keeping the journal never fails, whatever is
done to other files, for a log file stays a file (`Tree.Keeps`).

The *fatals* of a workspace are the errors that the command line has told. A
step *goes* to an outcome if it ends with it in a workspace that is settled too,
and tells these fatals meanwhile (`Workspace.Goes`).
-/

namespace TestGrid

open Fallible Files

variable {α β : Type}

/-- The handler takes every record: it is the screen, or a log file that is
    there. -/
def Handler.Works (t : Tree) : Handler → Prop
  | .screen => True
  | .file p => p.hasNull = false ∧ t.HasFile p

theorem Handler.Works.keeps {t t' : Tree} {h : Handler} (hw : h.Works t) (hk : t.Keeps t') :
    h.Works t' := by
  cases h with
  | screen => trivial
  | file p => exact ⟨hw.1, hw.2.keeps hk⟩

/-- The level is one at which errors are kept. -/
def Level.KeepsErrors (l : Level) : Prop := l ≠ .unset ∧ l.weight ≤ Level.error.weight

/-- The record is of an error that the command line tells. -/
def Record.Fatal (r : Record) : Prop := r.level = .error ∧ r.speaker = Speaker.commandLine

instance : DecidablePred Record.Fatal := fun _ => inferInstanceAs (Decidable (_ ∧ _))

/-- The note is of no error of the command line. -/
def Note.Plain : Note → Prop
  | .record level speaker _ => level = .error → speaker ≠ Speaker.commandLine
  | _ => True

theorem Note.plain_of_speaker {level : Level} {speaker : Text} {message : String}
    (h : speaker ≠ Speaker.commandLine) : (Note.record level speaker message).Plain := fun _ => h

/-- The errors that the command line has told. -/
def Workspace.fatals (w : Workspace) : List Record := w.records.filter (·.Fatal)

/-- All handlers work, and the command line is known to show errors once. -/
structure Journal.Sound (j : Journal) (t : Tree) : Prop where
  handlers : ∀ e ∈ j.loggers.entries, ∀ h ∈ e.2.handlers, h.Works t
  level : j.level.KeepsErrors
  known : Speaker.commandLine ∈ j.names
  speaks : ∃ l, j.logger? Speaker.commandLine = some l ∧ l.level.KeepsErrors ∧
    l.handlers.count .screen = 1

/-- The journal is sound, and every logger can be attached to its log file. -/
structure Workspace.Settled (w : Workspace) : Prop where
  sound : w.journal.Sound w.tree
  file : ∀ p, w.journal.file = some p →
    (Handler.file (p.seenFrom w.directory).normalized).Works w.tree

/-- A settled workspace comes from another one, without a change of the log file
    or a loss of files, and these fatals have been told meanwhile. -/
structure Workspace.Follows (w : Workspace) (told : List Record) (w' : Workspace) : Prop where
  directory : w'.directory = w.directory
  file : w'.journal.file = w.journal.file
  tree : w.tree.Keeps w'.tree
  fatals : w'.fatals = w.fatals ++ told
  settled : w'.Settled

/-- From the workspace, the step ends with the outcome and has told these
    fatals. -/
def Workspace.Goes (w : Workspace) (step : Work α) (outcome : Except Fault α)
    (told : List Record) : Prop :=
  (step.perform w).1 = outcome ∧ w.Follows told (step.perform w).2

namespace Workspace

variable {w w' w'' : Workspace} {told told' : List Record}

theorem Follows.refl (h : w.Settled) : w.Follows [] w :=
  ⟨rfl, rfl, .refl _, (List.append_nil _).symm, h⟩

theorem Follows.trans (h : w.Follows told w') (h' : w'.Follows told' w'') :
    w.Follows (told ++ told') w'' where
  directory := h'.directory.trans h.directory
  file := h'.file.trans h.file
  tree := h.tree.trans h'.tree
  fatals := by rw [h'.fatals, h.fatals, List.append_assoc]
  settled := h'.settled

/-- A handler goes on to work. -/
theorem Follows.works (h : w.Follows told w') {a : Handler} (ha : a.Works w.tree) :
    a.Works w'.tree := ha.keeps h.tree

theorem goes_pure (h : w.Settled) (a : α) : w.Goes (pure a) (.ok a) [] := ⟨rfl, .refl h⟩

theorem goes_throw (h : w.Settled) (f : Fault) : w.Goes (throw f : Work α) (.error f) [] :=
  ⟨rfl, .refl h⟩

theorem goes_liftExcept (h : w.Settled) (outcome : Except Fault α) :
    w.Goes (liftExcept outcome) outcome [] := by
  cases outcome <;> exact ⟨rfl, .refl h⟩

theorem goes_get {next : Workspace → Work β} {outcome : Except Fault β}
    (h : w.Goes (next w) outcome told) : w.Goes (get >>= next) outcome told := h

/-- Behind a result the run goes on; the fatals are those of both steps. -/
theorem Goes.bind {step : Work α} {next : α → Work β} {a : α} {outcome : Except Fault β}
    (hs : w.Goes step (.ok a) told) (hn : (step.perform w).2.Goes (next a) outcome told') :
    w.Goes (step >>= next) outcome (told ++ told') := by
  rw [Goes, Work.perform_bind_ok (Prod.ext hs.1 rfl)]
  exact ⟨hn.1, hs.2.trans hn.2⟩

/-- Behind a step that tells no fatals, the run goes on wherever it has led. -/
theorem Goes.andThen {step : Work α} {next : α → Work β} {a : α} {outcome : Except Fault β}
    (hs : w.Goes step (.ok a) []) (hn : ∀ w', w.Follows [] w' → w'.Goes (next a) outcome told) :
    w.Goes (step >>= next) outcome told := hs.bind (hn _ hs.2)

/-- Behind a fault nothing more is done. -/
theorem Goes.stops {step : Work α} {next : α → Work β} {f : Fault}
    (hs : w.Goes step (.error f) told) : w.Goes (step >>= next) (.error f) told := by
  rw [Goes, Work.perform_bind_error (Prod.ext hs.1 rfl)]
  exact ⟨rfl, hs.2⟩

end Workspace

namespace Journal

open Workspace

variable {w : Workspace}

namespace Sound

variable {j : Journal} {t : Tree}

/-- The handlers of a logger work. -/
theorem works_of_logger? (h : j.Sound t) {name : Text} {l : Logger} (hl : j.logger? name = some l) :
    ∀ a ∈ l.handlers, a.Works t :=
  h.handlers _ (Roster.get?_eq_some_iff.1 hl)

/-- A logger whose handlers work may be entered, if that of the command line goes
    on to show errors once. -/
theorem insert (h : j.Sound t) {name : Text} {l : Logger} (hw : ∀ a ∈ l.handlers, a.Works t)
    (hc : name = Speaker.commandLine → l.level.KeepsErrors ∧ l.handlers.count .screen = 1) :
    { j with loggers := j.loggers.insert name l }.Sound t where
  handlers e he := by
    rcases Roster.mem_entries_insert he with rfl | he
    · exact hw
    · exact h.handlers e he
  level := h.level
  known := h.known
  speaks := by
    have hget (name' : Text) :
        ({ j with loggers := j.loggers.insert name l } : Journal).logger? name' =
          if Logger.nameFor name' = name then some l else j.logger? name' :=
      Roster.get?_insert ..
    rw [hget]
    split
    · next hn => exact ⟨l, rfl, hc hn.symm⟩
    · exact h.speaks

/-- If a name is answered to by the logger of the command line, this one shows
    errors once. -/
theorem speaks_of_logger? (h : j.Sound t) {name : Text} {l : Logger} (hl : j.logger? name = some l)
    (hn : Logger.nameFor name = Speaker.commandLine) :
    l.level.KeepsErrors ∧ l.handlers.count .screen = 1 := by
  obtain ⟨l', hl', hs⟩ := h.speaks
  have he : j.logger? name = j.logger? Speaker.commandLine := by
    rw [logger?, logger?, hn]
    rfl
  rw [he, hl'] at hl
  cases hl
  exact hs

/-- A logger may be changed if its handlers go on to work and that of the command
    line goes on to show errors once. -/
theorem update (h : j.Sound t) {name : Text} {f : Logger → Logger}
    (hf : ∀ l, j.logger? name = some l → (∀ a ∈ (f l).handlers, a.Works t) ∧
      (Logger.nameFor name = Speaker.commandLine →
        (f l).level.KeepsErrors ∧ (f l).handlers.count .screen = 1)) :
    (j.update name f).Sound t := by
  rw [Journal.update]
  split
  · next l hl => exact h.insert (hf l hl).1 (hf l hl).2
  · exact h

end Sound

/-- Nothing but the loggers changes with a logger. -/
theorem exists_update_eq (j : Journal) (name : Text) (f : Logger → Logger) :
    ∃ loggers, j.update name f = { j with loggers } := by
  rw [update]
  split
  · exact ⟨_, rfl⟩
  · exact ⟨j.loggers, rfl⟩

theorem update_file (j : Journal) (name : Text) (f : Logger → Logger) :
    (j.update name f).file = j.file := by
  obtain ⟨_, h⟩ := exists_update_eq j name f
  rw [h]

/-- A logger that is there is found changed. -/
theorem logger?_update {j : Journal} {name : Text} {l : Logger} (hl : j.logger? name = some l)
    (f : Logger → Logger) : (j.update name f).logger? name = some (f l) := by
  rw [update, hl]
  exact (Roster.get?_insert ..).trans (if_pos rfl)

/-! ## Log files -/

/-- A log file either is refused, for a reason without a category, or it gets
    the bytes and is there from then on. It is not refused if it is there. -/
theorem appendLog_cases (w : Workspace) (p : Path) (bytes : ByteArray) :
    (∃ f, (appendLog p bytes).perform w = (.error f, w) ∧ f.category? = none ∧
        ¬(Handler.file p).Works w.tree) ∨
      ∃ tree, (appendLog p bytes).perform w = (.ok (), { w with tree }) ∧ w.tree.Keeps tree ∧
        (Handler.file p).Works tree := by
  cases hn : p.hasNull with
  | true =>
    refine .inl ⟨.nullCharacter, ?_, rfl, fun h => ?_⟩
    · rw [appendLog, hn]
      rfl
    · rw [h.1] at hn
      cases hn
  | false =>
    cases ha : w.tree.append p p bytes with
    | ok tree =>
      have hperform : (appendLog p bytes).perform w = (.ok (), { w with tree }) := by
        rw [appendLog, hn]
        refine (Work.perform_get_bind _ w).trans ?_
        rw [ha]
        rfl
      exact .inr ⟨tree, hperform, Tree.keeps_append ha, hn, Tree.hasFile_of_append ha⟩
    | error f =>
      have hperform : (appendLog p bytes).perform w = (.error (.refused f), w) := by
        rw [appendLog, hn]
        refine (Work.perform_get_bind _ w).trans ?_
        rw [ha]
        rfl
      refine .inl ⟨.refused f, hperform, rfl, fun h => ?_⟩
      obtain ⟨tree, ht⟩ := h.2.exists_append bytes
      rw [ha] at ht
      cases ht

/-- Files may be lost or gained as long as the tree keeps what it has. -/
theorem Sound.keeps {j : Journal} {t t' : Tree} (h : j.Sound t) (hk : t.Keeps t') : j.Sound t' :=
  ⟨fun e he a ha => (h.handlers e he a ha).keeps hk, h.level, h.known, h.speaks⟩

/-- A log file that is there gets the bytes. -/
theorem goes_appendLog (h : w.Settled) {p : Path} (hp : (Handler.file p).Works w.tree)
    (bytes : ByteArray) : w.Goes (appendLog p bytes) (.ok ()) [] := by
  rcases appendLog_cases w p bytes with ⟨f, -, -, hn⟩ | ⟨tree, hw, hk, -⟩
  · exact absurd hp hn
  · rw [Goes, hw]
    exact ⟨rfl, rfl, rfl, hk, (List.append_nil _).symm, h.sound.keeps hk,
      fun q hq => (h.file q hq).keeps hk⟩

/-- A change of the journal comes before what follows. -/
theorem perform_change_bind {α : Type} (f : Journal → Journal) (next : Unit → Work α)
    (w : Workspace) : (change f >>= next).perform w =
      (next ()).perform { w with journal := f w.journal } := rfl

/-- The journal may become another sound one with the same log file. -/
theorem goes_change (h : w.Settled) {f : Journal → Journal} (hs : (f w.journal).Sound w.tree)
    (hf : (f w.journal).file = w.journal.file) : w.Goes (change f) (.ok ()) [] :=
  ⟨rfl, rfl, hf, .refl _, (List.append_nil _).symm, hs, fun p hp => h.file p (hf ▸ hp)⟩

/-- A handler for a log file is among the handlers behind attaching them to it, or
    the file is refused. -/
theorem attached_cases (w : Workspace) (file : Path) {handlers : List Handler}
    (hw : ∀ a ∈ handlers, a.Works w.tree) :
    let log : Handler := .file (file.seenFrom w.directory).normalized
    (∃ f, (attached handlers file).perform w = (.error f, w) ∧ f.category? = none ∧
        ¬log.Works w.tree) ∨
      ∃ handlers' tree, (attached handlers file).perform w = (.ok handlers', { w with tree }) ∧
        w.tree.Keeps tree ∧ log.Works tree ∧ handlers'.count .screen = handlers.count .screen ∧
        ∀ a ∈ handlers', a.Works tree := by
  intro log
  have hp : (attached handlers file).perform w = (if log ∈ handlers then return handlers
      else do
        appendLog (file.seenFrom w.directory).normalized .empty
        return handlers ++ [log] : Work _).perform w := rfl
  by_cases hm : log ∈ handlers
  · rw [hp, if_pos hm]
    exact .inr ⟨handlers, w.tree, rfl, .refl _, hw log hm, rfl, hw⟩
  · rw [hp, if_neg hm]
    rcases appendLog_cases w (file.seenFrom w.directory).normalized .empty with
      ⟨f, ha, hc, hn⟩ | ⟨tree, ha, hk, hlog⟩
    · exact .inl ⟨f, Work.perform_bind_error ha _, hc, hn⟩
    · have hall : ∀ a ∈ handlers ++ [log], a.Works tree :=
        List.forall_mem_append.2 ⟨fun a ha => (hw a ha).keeps hk, List.forall_mem_singleton.2 hlog⟩
      have hcount : (handlers ++ [log]).count .screen = handlers.count .screen := by
        simp [log]
      exact .inr ⟨handlers ++ [log], tree, Work.perform_bind_ok ha _, hk, hlog, hcount, hall⟩

/-- Handlers that work are attached to the log file of the journal, or this file
    is refused. Behind this the workspace is settled. -/
theorem withLogFile_cases (hs : w.journal.Sound w.tree) {handlers : List Handler}
    (hw : ∀ a ∈ handlers, a.Works w.tree) :
    (∃ f, (withLogFile handlers).perform w = (.error f, w) ∧ f.category? = none ∧ ¬w.Settled) ∨
      ∃ handlers', w.Goes (withLogFile handlers) (.ok handlers') [] ∧
        handlers'.count .screen = handlers.count .screen ∧
        ∀ a ∈ handlers', a.Works ((withLogFile handlers).perform w).2.tree := by
  simp only [Goes]
  cases hf : w.journal.file with
  | none =>
    have hp : (withLogFile handlers).perform w = (.ok handlers, w) := by
      rw [withLogFile, Work.perform_get_bind, hf]
      rfl
    have hsettled : w.Settled := ⟨hs, fun p hp => by rw [hf] at hp; cases hp⟩
    rw [hp]
    exact .inr ⟨handlers, ⟨rfl, .refl hsettled⟩, rfl, hw⟩
  | some file =>
    have hp : (withLogFile handlers).perform w = (attached handlers file).perform w := by
      rw [withLogFile, Work.perform_get_bind, hf]
    rw [hp]
    rcases attached_cases w file hw with
      ⟨f, ha, hc, hn⟩ | ⟨handlers', tree, ha, hk, hlog, hcount, hall⟩
    · rw [ha]
      exact .inl ⟨f, rfl, hc, fun h => hn (h.file file hf)⟩
    · have hsettled : { w with tree }.Settled := by
        refine ⟨hs.keeps hk, fun q hq => ?_⟩
        obtain rfl : file = q := Option.some.inj (hf.symm.trans hq)
        exact hlog
      rw [ha]
      exact .inr ⟨handlers', ⟨rfl, rfl, rfl, hk, (List.append_nil _).symm, hsettled⟩, hcount, hall⟩

/-! ## Loggers -/

/-- A logger may get the level of the journal. -/
theorem Sound.update_level {j : Journal} {t : Tree} (h : j.Sound t) (name : Text) :
    (j.update name fun l => { l with level := j.level }).Sound t :=
  h.update fun l hl =>
    ⟨show ∀ a ∈ l.handlers, a.Works t from h.works_of_logger? hl,
      fun hn => ⟨h.level, (h.speaks_of_logger? hl hn).2⟩⟩

/-- To configure a logger that is there is to set its level and then to attach its
    handlers to the log file. -/
theorem perform_configure {name : Text} {l : Logger} (hl : w.journal.logger? name = some l) :
    (configure name).perform w = (do
      let handlers ← withLogFile l.handlers
      change (·.update name fun l => { l with handlers }) : Work Unit).perform { w with
        journal := w.journal.update name fun l => { l with level := w.journal.level } } := by
  rw [configure, Work.perform_get_bind, perform_change_bind, Work.perform_get_bind,
    logger?_update hl]

/-- A logger that has come into being is configured, or the log file is
    refused. Behind this the workspace is settled. -/
theorem configure_cases (hs : w.journal.Sound w.tree) {name : Text} {l : Logger}
    (hl : w.journal.logger? name = some l) :
    (∃ f, ((configure name).perform w).1 = .error f ∧ f.category? = none ∧
        ((configure name).perform w).2.fatals = w.fatals ∧ ¬w.Settled) ∨
      w.Goes (configure name) (.ok ()) [] := by
  let w₁ := { w with
    journal := w.journal.update name fun l => { l with level := w.journal.level } }
  have hs₁ : w₁.journal.Sound w₁.tree := hs.update_level name
  have hl₁ : w₁.journal.logger? name = some { l with level := w.journal.level } :=
    logger?_update hl _
  have hfile : w₁.journal.file = w.journal.file := update_file ..
  rw [Goes, perform_configure hl]
  rcases withLogFile_cases hs₁ (hs₁.works_of_logger? hl₁) with
    ⟨f, hf, hc, hn⟩ | ⟨handlers, hg, hcount, hworks⟩
  · rw [Work.perform_bind_error hf]
    exact .inl ⟨f, rfl, hc, rfl, fun h => hn ⟨hs₁, fun p hp => h.file p (hfile ▸ hp)⟩⟩
  · have hs₂ := hg.2.settled.sound
    have hset : w₁.Goes (do
        let handlers ← withLogFile l.handlers
        change (·.update name fun l => { l with handlers }) : Work Unit) (.ok ()) [] := by
      refine hg.bind (goes_change hg.2.settled (hs₂.update fun l' hl' => ⟨hworks, fun hn => ?_⟩)
        (update_file ..))
      exact ⟨(hs₂.speaks_of_logger? hl' hn).1, hcount.trans (hs₁.speaks_of_logger? hl₁ hn).2⟩
    obtain ⟨ho, hf⟩ := hset
    exact .inr ⟨ho, hf.directory, hf.file.trans hfile, hf.tree, hf.fatals, hf.settled⟩

theorem goes_configure (h : w.Settled) (name : Text) : w.Goes (configure name) (.ok ()) [] := by
  cases hl : w.journal.logger? name with
  | some l =>
    rcases configure_cases h.sound hl with ⟨f, -, -, -, hn⟩ | hg
    · exact absurd h hn
    · exact hg
  | none =>
    -- There is no logger to be changed.
    have hu (f : Logger → Logger) : w.journal.update name f = w.journal := by
      rw [update, hl]
    have hp : (configure name).perform w = (.ok (), w) := by
      rw [configure, Work.perform_get_bind, perform_change_bind, hu, Work.perform_get_bind, hl]
      rfl
    rw [Goes, hp]
    exact ⟨rfl, .refl h⟩

theorem goes_configureAll (h : w.Settled) (names : List Text) :
    w.Goes (configureAll names) (.ok ()) [] := by
  induction names generalizing w with
  | nil => exact goes_pure h ()
  | cons name names ih => exact (goes_configure h name).andThen fun _ hw => ih hw.settled

/-- A set-up at the start of a program ends in a settled workspace, or with a
    fault without a category. No fatals are told. -/
theorem setUp_cases (hj : w.journal = .fresh) (file : Option Path) (verbose : Bool) :
    (∃ f, ((setUp .info file verbose).perform w).1 = .error f ∧ f.category? = none ∧
        ((setUp .info file verbose).perform w).2.fatals = w.fatals) ∨
      ((setUp .info file verbose).perform w).1 = .ok () ∧
        ((setUp .info file verbose).perform w).2.Settled ∧
        ((setUp .info file verbose).perform w).2.fatals = w.fatals := by
  let level : Level := if verbose then .debug else .info
  let w₁ : Workspace := { w with journal := { fresh with level, file } }
  have hlevel : level.KeepsErrors := by
    cases verbose <;> exact ⟨by decide, by decide⟩
  have hs₁ : w₁.journal.Sound w₁.tree := by
    have hknown : Speaker.commandLine ∈ fresh.names := by decide
    refine ⟨?_, hlevel, hknown, ⟨_, rfl, ⟨by decide, by decide⟩, by decide⟩⟩
    have hscreen : ∀ e ∈ fresh.loggers.entries, ∀ a ∈ e.2.handlers, a = .screen := by decide
    exact fun e he a ha => hscreen e he a ha ▸ trivial
  have hp : (setUp .info file verbose).perform w = (configureAll fresh.names).perform w₁ := by
    show (configureAll w.journal.names).perform
      { w with journal := { w.journal with level, file } } = _
    rw [hj]
  have hfatals : w₁.fatals = w.fatals := rfl
  rw [hp]
  -- The first logger to be configured finds out whether the log file is refused.
  have hfirst : w₁.journal.logger? Speaker.pipeline = some _ := rfl
  rcases configure_cases hs₁ hfirst with ⟨f, hf, hc, ht, -⟩ | hg
  · have he : (configureAll fresh.names).perform w₁ = (.error f, _) :=
      Work.perform_bind_error (Prod.ext hf rfl) _
    rw [he]
    exact .inl ⟨f, rfl, hc, ht⟩
  · obtain ⟨ho, hf⟩ : w₁.Goes (configureAll fresh.names) (.ok ()) [] :=
      hg.andThen fun _ hw => goes_configureAll hw.settled _
    exact .inr ⟨ho, hf.settled, hf.fatals.trans (List.append_nil _)⟩

/-- Only its own name and no other one is answered to by the command line. -/
theorem eq_of_nameFor {name : Text} (h : Logger.nameFor name = Speaker.commandLine) :
    name = Speaker.commandLine := by
  rw [Logger.nameFor] at h
  split at h
  · cases h
  · exact h

theorem goes_appear (h : w.Settled) (name : Text) : w.Goes (appear name) (.ok ()) [] := by
  refine goes_get ?_
  dsimp only
  split
  · exact goes_pure h ()
  · next hn =>
    -- The command line is known from the set-up on, so it is not what appears.
    have hother : Logger.nameFor name ≠ Speaker.commandLine := fun he =>
      hn (List.contains_iff_mem.2 (eq_of_nameFor he ▸ h.sound.known))
    have hworks : ∀ a ∈ ((w.journal.logger? name).getD {}).onScreen.handlers, a.Works w.tree := by
      refine List.forall_mem_append.2 ⟨fun a ha => ?_, List.forall_mem_singleton.2 trivial⟩
      have ha := List.mem_of_mem_filter ha
      cases hl : w.journal.logger? name with
      | none =>
        rw [hl] at ha
        exact absurd ha List.not_mem_nil
      | some l =>
        rw [hl] at ha
        exact h.sound.works_of_logger? hl a ha
    refine (goes_change h (h.sound.insert hworks fun he => absurd he hother) rfl).andThen
      fun _ hw => (goes_configure hw.settled name).andThen fun _ hw => ?_
    have hs := hw.settled.sound
    exact goes_change hw.settled
      ⟨hs.handlers, hs.level, List.mem_append_left _ hs.known, hs.speaks⟩ rfl

/-! ## Records -/

/-- Handlers that work take a record; an error of the command line is told once
    for each time that the screen is among them. -/
theorem goes_handleAll (h : w.Settled) (r : Record) {handlers : List Handler}
    (hw : ∀ a ∈ handlers, a.Works w.tree) :
    w.Goes (handleAll r handlers) (.ok ())
      (if r.Fatal then List.replicate (handlers.count .screen) r else []) := by
  -- The handlers behind one that has taken the record go on to work.
  induction handlers generalizing w with
  | nil =>
    rw [List.count_nil, List.replicate_zero, ite_self]
    exact goes_pure h ()
  | cons a handlers ih =>
    rw [List.forall_mem_cons] at hw
    cases a with
    | screen =>
      have hshown : w.Goes (handle r .screen) (.ok ()) (if r.Fatal then [r] else []) := by
        refine ⟨rfl, rfl, rfl, .refl _, ?_, h.sound, h.file⟩
        show (w.records ++ [r]).filter _ = w.records.filter _ ++ _
        rw [List.filter_append]
        by_cases hr : r.Fatal <;> simp [hr]
      have hrest : ((handle r .screen).perform w).2.Goes (handleAll r handlers) (.ok ()) _ :=
        ih hshown.2.settled fun a ha => hshown.2.works (hw.2 a ha)
      have hall : w.Goes (handleAll r (.screen :: handlers)) (.ok ()) _ := hshown.bind hrest
      rw [List.count_cons_self]
      split at hall
      · next hr =>
        rw [if_pos hr]
        exact hall
      · next hr =>
        rw [if_neg hr]
        exact hall
    | file p =>
      have hkept : w.Goes (handle r (.file p)) (.ok ()) [] := goes_get (goes_appendLog h hw.1 _)
      have hne : Handler.file p ≠ .screen := fun he => by cases he
      rw [List.count_cons_of_ne hne]
      exact hkept.andThen fun w' hw' => ih hw'.settled fun a ha => hw'.works (hw.2 a ha)

/-- What is told, but for errors of the command line, is no fatal. -/
theorem goes_tell (h : w.Settled) {level : Level} {name : Text}
    (hn : level = .error → name ≠ Speaker.commandLine) (message : String) :
    w.Goes (tell level name message) (.ok ()) [] := by
  refine (goes_appear h name).andThen fun w hw => goes_get ?_
  dsimp only
  split
  · next l hl =>
    split
    · have hplain : ¬Record.Fatal ⟨level, Logger.nameFor name, message⟩ := fun hr =>
        hn hr.1 (eq_of_nameFor hr.2)
      have hall := goes_handleAll hw.settled ⟨level, Logger.nameFor name, message⟩
        (hw.settled.sound.works_of_logger? hl)
      rw [if_neg hplain] at hall
      exact hall
    · exact goes_pure hw.settled ()
  · exact goes_pure hw.settled ()

/-- The error that ends a run is told by the command line once. -/
theorem goes_tellFatal (h : w.Settled) (message : String) :
    w.Goes (tellFatal Speaker.commandLine message) (.ok ())
      [⟨.error, Speaker.commandLine, s!"{fatalMark} {message}"⟩] := by
  refine (goes_appear h _).andThen fun w hw => goes_get ?_
  obtain ⟨l, hl, hk, hcount⟩ := hw.settled.sound.speaks
  have hkeeps : w.journal.keeps Speaker.commandLine .error = true := by
    have hlevel : w.journal.levelOf (Logger.nameFor Speaker.commandLine) = l.level := by
      rw [levelOf]
      exact congrArg (fun o : Option Logger => (o.map Logger.level).getD .unset) hl
    rw [keeps, threshold, hlevel, if_pos hk.1]
    exact decide_eq_true hk.2
  dsimp only
  rw [hl]
  dsimp only
  rw [if_pos hkeeps]
  have hall := goes_handleAll hw.settled
    ⟨.error, Speaker.commandLine, s!"{fatalMark} {message}"⟩ (hw.settled.sound.works_of_logger? hl)
  rw [if_pos ⟨rfl, rfl⟩, hcount] at hall
  exact hall

theorem goes_take (h : w.Settled) {n : Note} (hn : n.Plain) : w.Goes (take n) (.ok ()) [] := by
  cases n with
  | appear speaker => exact goes_appear h speaker
  | record level speaker message => exact goes_tell h hn message
  | timing activity => exact goes_get (goes_tell h (by rintro ⟨⟩) _)

theorem goes_takeAll (h : w.Settled) {notes : List Note} (hn : ∀ n ∈ notes, n.Plain) :
    w.Goes (takeAll notes) (.ok ()) [] := by
  induction notes generalizing w with
  | nil => exact goes_pure h ()
  | cons n notes ih =>
    rw [List.forall_mem_cons] at hn
    exact (goes_take h hn.1).andThen fun _ hw => ih hw.settled hn.2

end Journal

end TestGrid
