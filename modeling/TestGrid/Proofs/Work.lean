import TestGrid.Proofs.Fallible
import TestGrid.Workspace

/-!
# Steps that keep no log file

A run that keeps no log file is known from the directory it works in and the
tree: each of its steps *leads* from one tree to another, with an outcome,
whatever the journal has become and whatever has been shown before
(`Work.Leads`). Most steps change nothing but the journal and what is shown;
they *read* their outcome from the tree and leave it as it is (`Work.Reads`).
A run is followed by putting its steps one behind the other (`Leads.andThen`).
-/

namespace TestGrid

open Fallible Files

/-- No record of the journal goes anywhere but to the screen. -/
structure Journal.OnScreen (j : Journal) : Prop where
  file : j.file = none
  handlers : ∀ e ∈ j.loggers.entries, ∀ h ∈ e.2.handlers, h = .screen

theorem Journal.onScreen_fresh : Journal.fresh.OnScreen := ⟨rfl, by decide⟩

/-- The workspace is in a directory of a tree, and keeps no log file. -/
structure Workspace.Stands (w : Workspace) (directory : Path) (tree : Tree) : Prop where
  directory : w.directory = directory
  tree : w.tree = tree
  onScreen : w.journal.OnScreen

namespace Work

variable {α β : Type} {directory : Path} {tree tree' tree'' : Tree}

/-- A sequence of steps is performed one after the other. -/
theorem perform_bind_ok {step : Work α} {a : α} {w w' : Workspace}
    (h : step.perform w = (.ok a, w')) (next : α → Work β) :
    (step >>= next).perform w = (next a).perform w' := by
  show (ExceptT.bindCont next (step.perform w).1 (step.perform w).2) = _
  rw [h]
  rfl

/-- A step that looks at the workspace first goes on in it. -/
theorem perform_get_bind (next : Workspace → Work β) (w : Workspace) :
    (get >>= next).perform w = (next w).perform w := rfl

theorem perform_bind_error {step : Work α} {f : Fault} {w w' : Workspace}
    (h : step.perform w = (.error f, w')) (next : α → Work β) :
    (step >>= next).perform w = (.error f, w') := by
  show (ExceptT.bindCont next (step.perform w).1 (step.perform w).2) = _
  rw [h]
  rfl

/-- In every workspace in the directory of the tree that keeps no log file, the
    step ends with the outcome, in the same directory of another tree and still
    without a log file. -/
def Leads (directory : Path) (tree tree' : Tree) (step : Work α) (outcome : Except Fault α) :
    Prop :=
  ∀ w : Workspace, w.Stands directory tree →
    (step.perform w).1 = outcome ∧ (step.perform w).2.Stands directory tree'

/-- The step ends with the outcome and leaves the tree as it is. -/
abbrev Reads (directory : Path) (tree : Tree) (step : Work α) (outcome : Except Fault α) : Prop :=
  Leads directory tree tree step outcome

/-- Behind a step that ends with a result, the run goes on with it. -/
theorem Leads.andThen {step : Work α} {next : α → Work β} {a : α} {outcome : Except Fault β}
    (hs : Leads directory tree tree' step (.ok a))
    (hn : Leads directory tree' tree'' (next a) outcome) :
    Leads directory tree tree'' (step >>= next) outcome := by
  intro w hw
  obtain ⟨ho, hw'⟩ := hs w hw
  rw [perform_bind_ok (Prod.ext ho rfl)]
  exact hn _ hw'

/-- Behind a step that fails, nothing more is done. -/
theorem Leads.stops {step : Work α} {next : α → Work β} {f : Fault}
    (hs : Leads directory tree tree' step (.error f)) :
    Leads directory tree tree' (step >>= next) (.error f) := by
  intro w hw
  obtain ⟨ho, hw'⟩ := hs w hw
  rw [perform_bind_error (Prod.ext ho rfl)]
  exact ⟨rfl, hw'⟩

/-- A step that looks at the workspace first leads where it leads from any that
    stands there. -/
theorem leads_get {next : Workspace → Work β} {outcome : Except Fault β}
    (h : ∀ w : Workspace, w.Stands directory tree → Leads directory tree tree' (next w) outcome) :
    Leads directory tree tree' (get >>= next) outcome := fun w hw => h w hw w hw

theorem leads_modify {f : Workspace → Workspace}
    (h : ∀ w : Workspace, w.Stands directory tree → (f w).Stands directory tree') :
    Leads directory tree tree' (modify f) (.ok ()) := fun w hw => ⟨rfl, h w hw⟩

theorem reads_pure (a : α) : Reads directory tree (pure a) (.ok a) := fun _ hw => ⟨rfl, hw⟩

theorem reads_throw (f : Fault) : Reads directory tree (throw f : Work α) (.error f) :=
  fun _ hw => ⟨rfl, hw⟩

theorem reads_liftExcept (outcome : Except Fault α) :
    Reads directory tree (liftExcept outcome) outcome := fun _ hw => by
  cases outcome <;> exact ⟨rfl, hw⟩

theorem Reads.bind {step : Work α} {next : α → Work β} {outcome : Except Fault α}
    {after : α → Except Fault β} (hs : Reads directory tree step outcome)
    (hn : ∀ a, Reads directory tree (next a) (after a)) :
    Reads directory tree (step >>= next) (outcome >>= after) := by
  cases outcome with
  | error f => exact hs.stops
  | ok a => exact hs.andThen (hn a)

theorem reads_show (ds : List Drawing) : Reads directory tree (Work.show ds) (.ok ()) :=
  leads_modify fun _ hw => ⟨hw.directory, hw.tree, hw.onScreen⟩

theorem reads_showError (ds : List Drawing) : Reads directory tree (showError ds) (.ok ()) :=
  leads_modify fun _ hw => ⟨hw.directory, hw.tree, hw.onScreen⟩

theorem reads_fromRoot (p : Path) :
    Reads directory tree (fromRoot p) (.ok (p.seenFrom directory)) :=
  leads_get fun w hw => by
    rw [hw.directory]
    exact reads_pure _

end Work

end TestGrid
