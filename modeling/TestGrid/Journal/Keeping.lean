import TestGrid.Workspace

/-!
# Keeping a journal

The journal of a workspace is set up with a level and a log file, loggers
appear when they are first asked for, and records are told to them. A log file
is made when a logger is attached to it; a logger is attached to the same file
once, however the file is named. Files that were attached stay attached.

* `setUp` tells all known loggers the level and attaches them to the log file;
* `appear` makes a logger, with the level and the log file of the journal;
* `tell` takes a record to the handlers of its logger.
-/

namespace TestGrid.Journal

open Files

/-- Puts some bytes at the end of a log file, which is made if it is missing. -/
def appendLog (file : Path) (bytes : ByteArray) : Work Unit := do
  if file.hasNull then throw .nullCharacter
  match (← get).tree.append file file bytes with
  | .ok tree => modify fun w => { w with tree }
  | .error f => throw (.refused f)

/-- The handlers of a logger with one for a log file, which is made if it is
    missing, unless they have one. -/
def attached (handlers : List Handler) (file : Path) : Work (List Handler) := do
  let file := (← Work.fromRoot file).normalized
  if .file file ∈ handlers then return handlers
  else
    appendLog file .empty
    return handlers ++ [.file file]

/-- The handlers of a logger with one for the log file of the journal, if it
    has one. -/
def withLogFile (handlers : List Handler) : Work (List Handler) := do
  match (← get).journal.file with
  | some file => attached handlers file
  | none => return handlers

/-- Changes the journal. -/
def change (f : Journal → Journal) : Work Unit :=
  modify fun w => { w with journal := f w.journal }

/-- Tells a logger the level of the journal and attaches it to the log file. -/
def configure (name : Text) : Work Unit := do
  let level := (← get).journal.level
  change (·.update name fun l => { l with level })
  match (← get).journal.logger? name with
  | some l =>
    let handlers ← withLogFile l.handlers
    change (·.update name fun l => { l with handlers })
  | none => return

/-- Configures the loggers of some names in turn. -/
def configureAll : List Text → Work Unit
  | [] => return
  | name :: names => do
    configure name
    configureAll names

/-- Sets the level, or the lightest level if it is to be verbose, and the log
    file, for all loggers that are known and for those to come. -/
def setUp (level : Level) (file : Option Path) (verbose : Bool) : Work Unit := do
  let level := if verbose then .debug else level
  -- The journal keeps both, even if some logger cannot be attached to the file.
  change fun j => { j with level, file }
  configureAll (← get).journal.names

/-- Makes a logger, unless one is known by the name. It is known once it is
    attached to the log file of the journal. -/
def appear (name : Text) : Work Unit := do
  let j := (← get).journal
  if j.names.contains name then return
  else
    let l := ((j.logger? name).getD {}).onScreen
    change fun j => { j with loggers := j.loggers.insert (Logger.nameFor name) l }
    configure name
    change fun j => { j with names := j.names ++ [name] }

/-- Gives a logger a level of its own. -/
def setLevel (name : Text) (level : Level) : Work Unit := do
  appear name
  change (·.update name fun l => { l with level })

/-- A record as a line of a log file. -/
def line (moment : Text) (r : Record) : Text :=
  s!"{moment} - {r.speaker} - {r.level.name} - {r.message}\n".toList

/-- Takes a record to a handler. -/
def handle (r : Record) : Handler → Work Unit
  | .screen => modify fun w => { w with records := w.records ++ [r] }
  | .file p => do appendLog p (Text.encode (line (← get).gauge.moment r))

/-- Takes a record to some handlers in turn. -/
def handleAll (r : Record) : List Handler → Work Unit
  | [] => return
  | h :: hs => do
    handle r h
    handleAll r hs

/-- Takes a record to the handlers of its logger, which is made if it is not
    known, unless it is too light for it. -/
def tell (level : Level) (name : Text) (message : String) : Work Unit := do
  appear name
  let j := (← get).journal
  match j.logger? name with
  | some l =>
    if j.keeps name level then handleAll ⟨level, Logger.nameFor name, message⟩ l.handlers
    else return
  | none => return

/-- The mark in front of the message that ends a run. -/
def fatalMark : String := "ERROR_MSG_FLAG"

/-- Tells the error that ends a run. -/
def tellFatal (name : Text) (message : String) : Work Unit :=
  tell .error name s!"{fatalMark} {message}"

/-- Takes a note of a computation to its logger. -/
def take : Note → Work Unit
  | .appear speaker => appear speaker
  | .record level speaker message => tell level speaker message
  | .timing activity => do
    tell .debug Speaker.clock s!"{activity} took {(← get).gauge.seconds} seconds"

/-- Takes notes in turn. -/
def takeAll : List Note → Work Unit
  | [] => return
  | n :: ns => do
    take n
    takeAll ns

/-- Runs an activity and tells the time that it took, whether it failed or
    not. -/
def timed {α : Type} (activity : String) (work : Work α) : Work α := fun w =>
  let (result, w) := work w
  match takeAll [.appear Speaker.clock, .timing activity] w with
  | (.ok _, w) => (result, w)
  | (.error f, w) => (.error f, w)

end TestGrid.Journal
