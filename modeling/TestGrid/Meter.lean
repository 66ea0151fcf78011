import TestGrid.Report
import TestGrid.Roster

/-!
# Meters

A meter takes down a *metric* for each stage that it measures: the time, and
how much memory was in use if it tracks memory. Memory can be tracked only
while it is *traced*, and there is one tracing for all meters: a meter that
finds memory untraced when it is made starts the tracing and owns it, and stops
it when it is closed. Tracing may also be started and stopped from outside.

A *bench* holds the meters by name and remembers who started the tracing that
is on. What is done at a bench is an `Activity`; a measured block has activities
inside, and its metric is taken down when it ends, also if it fails. A failure
ends all the blocks around it, up to an attempt, which goes on behind it.

* `Bench.perform`: the result of an activity and the bench after it.
-/

namespace TestGrid

/-- The memory that a stage used in the end and at most, in megabytes. -/
structure MemoryUse where
  used : Text
  peak : Text
  deriving DecidableEq, Repr

/-- What a meter takes down for a stage. -/
structure Metric where
  stage : Text
  seconds : Text
  memory : Option MemoryUse
  deriving DecidableEq, Repr

/-- A meter. -/
structure Meter where
  /-- How many meters had been made before it. No other meter has this number,
      also if it takes the place of this one. -/
  serial : Nat
  tracksMemory : Bool
  /-- Whether the meter has started the tracing and not stopped it yet. -/
  ownsTracing : Bool
  /-- The metrics, in the order in which they were taken down. -/
  metrics : List Metric
  deriving DecidableEq, Repr

namespace Meter

/-- The metric of a stage, if the instruments read as given. -/
def metric (m : Meter) (stage seconds megabytes : Text) : Metric :=
  ⟨stage, seconds, if m.tracksMemory then some ⟨megabytes, megabytes⟩ else none⟩

/-- Takes down a stage. -/
def takeDown (m : Meter) (stage seconds megabytes : Text) : Meter :=
  { m with metrics := m.metrics ++ [m.metric stage seconds megabytes] }

/-- The row of a metric. -/
def row (m : Meter) (metric : Metric) : List Cell :=
  let peak := (metric.memory.map MemoryUse.peak).getD (Report.words "0.00")
  [.marked metric.stage, .marked (metric.seconds ++ ['s'])] ++
    if m.tracksMemory then [.marked (peak ++ Report.words " MB")] else []

/-- The table of the metrics, if there are any. -/
def summary (m : Meter) : List Drawing :=
  let memory : List Column :=
    if m.tracksMemory then [{ header := Report.words "Peak Memory", style := "yellow" }] else []
  if m.metrics.isEmpty then []
  else [.table (Report.words "Performance Summary")
    ([{ header := Report.words "Stage", style := "cyan" },
      { header := Report.words "Time", style := "green" }] ++ memory)
    (m.metrics.map m.row)]

end Meter

/-- Who has started the tracing. -/
inductive Starter where
  | meter (serial : Nat)
  | outside
  deriving DecidableEq, Repr

/-- What is done at a bench. -/
inductive Activity where
  /-- Makes a meter, which replaces that of the same name. -/
  | make (meter : Text) (tracksMemory : Bool)
  | startTracing
  | stopTracing
  /-- Measures a block of activities as a stage; the block may fail at its end
      with a message. -/
  | measure (meter stage : Text) (block : List Activity) (failure : Option Text)
  /-- Attempts an activity, which may fail. -/
  | attempt (activity : Activity)
  /-- Shows the metrics of a meter. -/
  | summary (meter : Text)
  | close (meter : Text)
  deriving Inhabited

/-- What an activity results in. -/
inductive Result where
  | nothing
  | drawings (ds : List Drawing)
  | block (results : List Result)
  /-- What was attempted has failed, with a message. -/
  | failed (message : Text)
  deriving Inhabited

/-- The meters, and the tracing. -/
structure Bench where
  /-- Who has started the tracing, while it is on. -/
  tracing : Option Starter := none
  /-- How many meters have been made. -/
  made : Nat := 0
  meters : Roster Text Meter := ∅
  deriving DecidableEq, Repr

namespace Bench

/-- Changes a meter. -/
def update (b : Bench) (name : Text) (f : Meter → Meter) : Bench :=
  match b.meters.get? name with
  | some m => { b with meters := b.meters.insert name (f m) }
  | none => b

/-- Makes a meter, which starts the tracing if it tracks memory and finds the
    tracing off. -/
def make (b : Bench) (name : Text) (tracksMemory : Bool) : Bench :=
  let starts := tracksMemory && b.tracing.isNone
  { tracing := if starts then some (.meter b.made) else b.tracing
    made := b.made + 1
    meters := b.meters.insert name ⟨b.made, tracksMemory, starts, []⟩ }

/-- Starts the tracing from outside, unless it is on. -/
def startTracing (b : Bench) : Bench := { b with tracing := b.tracing <|> some .outside }

/-- Stops the tracing from outside. -/
def stopTracing (b : Bench) : Bench := { b with tracing := none }

/-- Closes a meter: it stops the tracing if it owns it. -/
def close (b : Bench) (name : Text) : Bench :=
  match b.meters.get? name with
  | some m =>
    if m.ownsTracing then
      { b with tracing := none, meters := b.meters.insert name { m with ownsTracing := false } }
    else b
  | none => b

/-- Takes down a stage with a meter, given its number, unless another meter has
    taken its place since. -/
def takeDown (b : Bench) (name : Text) (serial : Option Nat) (stage seconds megabytes : Text) :
    Bench :=
  b.update name fun m => if some m.serial = serial then m.takeDown stage seconds megabytes else m

mutual

/-- Performs an activity: its result, or the message of the failure in it, and
    the bench after it. The instruments read as given. -/
def perform (seconds megabytes : Text) : Activity → Bench → Except Text Result × Bench
  | .make meter tracksMemory, b => (.ok .nothing, b.make meter tracksMemory)
  | .startTracing, b => (.ok .nothing, b.startTracing)
  | .stopTracing, b => (.ok .nothing, b.stopTracing)
  | .measure meter stage block failure, b =>
    let serial := (b.meters.get? meter).map Meter.serial
    let (results, b) := performAll seconds megabytes block b
    -- The metric is taken down before the failure, if there is one, goes on.
    let b := b.takeDown meter serial stage seconds megabytes
    match results, failure with
    | .error e, _ => (.error e, b)
    | .ok _, some e => (.error e, b)
    | .ok rs, none => (.ok (.block rs), b)
  | .attempt a, b =>
    match perform seconds megabytes a b with
    | (.error e, b) => (.ok (.failed e), b)
    | (.ok r, b) => (.ok r, b)
  | .summary meter, b => (.ok (.drawings (((b.meters.get? meter).map Meter.summary).getD [])), b)
  | .close meter, b => (.ok .nothing, b.close meter)

/-- Performs activities in turn, up to the first failure. -/
def performAll (seconds megabytes : Text) : List Activity → Bench → Except Text (List Result) × Bench
  | [], b => (.ok [], b)
  | a :: as, b =>
    match perform seconds megabytes a b with
    | (.error e, b) => (.error e, b)
    | (.ok r, b) =>
      match performAll seconds megabytes as b with
      | (.error e, b) => (.error e, b)
      | (.ok rs, b) => (.ok (r :: rs), b)

end

end Bench

end TestGrid
