import TestGrid.Journal.Keeping
import TestGrid.Proofs.Roster
import TestGrid.Proofs.Work

/-!
# Keeping a journal on the screen

As long as no log file is asked for, keeping the journal only reads: loggers
appear, are configured and told records without a fault, and no file changes
(`reads_setUp`, `reads_appear`, `reads_tell`, `reads_takeAll`). What carries
this is that each change of the journal leaves it on the screen.
-/

namespace TestGrid.Journal

open Files Work

variable {directory : Path} {tree : Tree}

namespace OnScreen

variable {j : Journal}

/-- A logger that is found has no handler but the screen. -/
theorem of_logger? (h : j.OnScreen) {name : Text} {l : Logger} (hl : j.logger? name = some l) :
    ∀ a ∈ l.handlers, a = .screen :=
  h.handlers _ (Roster.get?_eq_some_iff.1 hl)

/-- A logger may be entered if it has no handler but the screen. -/
theorem insert (h : j.OnScreen) {l : Logger} (hl : ∀ a ∈ l.handlers, a = .screen) (name : Text) :
    { j with loggers := j.loggers.insert name l }.OnScreen := by
  refine ⟨h.file, fun e he => ?_⟩
  rcases Roster.mem_entries_insert he with rfl | he
  · exact hl
  · exact h.handlers e he

/-- A logger may be changed if it keeps no handler but the screen. -/
theorem update (h : j.OnScreen) {name : Text} {f : Logger → Logger}
    (hf : ∀ l : Logger, (∀ a ∈ l.handlers, a = .screen) → ∀ a ∈ (f l).handlers, a = .screen) :
    (j.update name f).OnScreen := by
  rw [Journal.update]
  split
  · next l hl => exact h.insert (hf l (h.of_logger? hl)) _
  · exact h

end OnScreen

/-- A logger that is put on the screen has no other handler, if it had none. -/
theorem onScreen_handlers {l : Logger} (h : ∀ a ∈ l.handlers, a = .screen) :
    ∀ a ∈ l.onScreen.handlers, a = .screen := by
  intro a ha
  rcases List.mem_append.1 ha with ha | ha
  · exact h a (List.mem_of_mem_filter ha)
  · exact List.mem_singleton.1 ha

theorem reads_change {f : Journal → Journal} (h : ∀ j : Journal, j.OnScreen → (f j).OnScreen) :
    Reads directory tree (change f) (.ok ()) :=
  leads_modify fun _ hw => ⟨hw.directory, hw.tree, h _ hw.onScreen⟩

theorem reads_withLogFile (handlers : List Handler) :
    Reads directory tree (withLogFile handlers) (.ok handlers) :=
  leads_get fun w hw => by
    rw [hw.onScreen.file]
    exact reads_pure _

theorem reads_configure (name : Text) : Reads directory tree (configure name) (.ok ()) := by
  rw [configure]
  refine leads_get fun w _ => ?_
  refine Leads.andThen (reads_change fun _ hj => hj.update fun _ hl => hl) ?_
  refine leads_get fun w hw => ?_
  split
  · next l hl =>
    -- The handlers are given back as they were, so all of them are the screen.
    have hs := hw.onScreen.of_logger? hl
    exact (reads_withLogFile l.handlers).andThen (reads_change fun _ hj => hj.update fun _ _ => hs)
  · exact reads_pure _

theorem reads_configureAll (names : List Text) :
    Reads directory tree (configureAll names) (.ok ()) := by
  induction names with
  | nil => exact reads_pure _
  | cons name names ih => exact (reads_configure name).andThen ih

/-- A set-up without a log file only reads. -/
theorem reads_setUp (level : Level) (verbose : Bool) :
    Reads directory tree (setUp level none verbose) (.ok ()) := by
  rw [setUp]
  refine Leads.andThen (reads_change fun _ hj => ⟨rfl, hj.handlers⟩) ?_
  exact leads_get fun w _ => reads_configureAll _

theorem reads_appear (name : Text) : Reads directory tree (appear name) (.ok ()) := by
  refine leads_get fun w hw => ?_
  dsimp only
  split
  · exact reads_pure _
  · have hl : ∀ a ∈ ((w.journal.logger? name).getD {}).onScreen.handlers, a = .screen := by
      refine onScreen_handlers ?_
      cases hl : w.journal.logger? name with
      | none => exact fun _ ha => absurd ha List.not_mem_nil
      | some l => exact hw.onScreen.of_logger? hl
    refine (reads_change fun _ hj => hj.insert hl _).andThen ((reads_configure name).andThen ?_)
    exact reads_change fun _ hj => ⟨hj.file, hj.handlers⟩

/-- Handlers that are the screen only show the record. -/
theorem reads_handleAll (r : Record) {handlers : List Handler} (h : ∀ a ∈ handlers, a = .screen) :
    Reads directory tree (handleAll r handlers) (.ok ()) := by
  induction handlers with
  | nil => exact reads_pure _
  | cons a handlers ih =>
    rw [List.forall_mem_cons] at h
    obtain ⟨rfl, hs⟩ := h
    have hr : Reads directory tree (handle r .screen) (.ok ()) :=
      leads_modify fun _ hw => ⟨hw.directory, hw.tree, hw.onScreen⟩
    exact hr.andThen (ih hs)

theorem reads_tell (level : Level) (name : Text) (message : String) :
    Reads directory tree (tell level name message) (.ok ()) := by
  refine (reads_appear name).andThen (leads_get fun w hw => ?_)
  dsimp only
  split
  · next l hl =>
    split
    · exact reads_handleAll _ (hw.onScreen.of_logger? hl)
    · exact reads_pure _
  · exact reads_pure _

theorem reads_take (n : Note) : Reads directory tree (take n) (.ok ()) := by
  cases n with
  | appear speaker => exact reads_appear speaker
  | record level speaker message => exact reads_tell level speaker message
  | timing activity => exact leads_get fun w _ => reads_tell _ _ _

theorem reads_takeAll (notes : List Note) : Reads directory tree (takeAll notes) (.ok ()) := by
  induction notes with
  | nil => exact reads_pure _
  | cons n notes ih => exact (reads_take n).andThen ih

end TestGrid.Journal
