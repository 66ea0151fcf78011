import TestGrid.Proofs.Metrics

/-!
# Measured blocks

The blocks that are entered in an activity form a forest: what is entered inside a
block stands below it. A failure cuts the forest short, for behind it nothing is
entered up to the end of the attempt around it.

Each block is taken down when it ends, whether it fails or not. So a meter takes
down its own blocks in the order in which they end: first those inside a block, in
their order, and then the block itself.

* `Activity.failure?`: the failure of an activity does not depend on the bench
  (`fst_perform_eq_error_iff`).
* `filterMap_metric?_courseAll`: what the course of an activity takes down are the
  blocks of the forest, in the order of their ends.
* `blocks_taken_down_as_they_end`: so each meter takes down its own blocks, with
  memory figures if it tracks memory.
-/

namespace TestGrid

/-! ## Forests of blocks -/

/-- A measured block that was entered: its meter, by name and number, its stage, and
    the blocks that were entered inside. -/
structure Block where
  meter : Text
  serial : Nat
  stage : Text
  inner : List Block

namespace Block

mutual

/-- A block and those inside, in the order in which they are entered. -/
def entered : Block → List Block
  | b@⟨_, _, _, inner⟩ => b :: enteredAll inner

/-- The blocks of a forest, in the order in which they are entered. -/
def enteredAll : List Block → List Block
  | [] => []
  | b :: bs => b.entered ++ enteredAll bs

end

mutual

/-- A block and those inside, in the order in which they end. -/
def ended : Block → List Block
  | b@⟨_, _, _, inner⟩ => endedAll inner ++ [b]

/-- The blocks of a forest, in the order in which they end. -/
def endedAll : List Block → List Block
  | [] => []
  | b :: bs => b.ended ++ endedAll bs

end

/-- Those of some blocks that belong to the meter of a name and a number. -/
def ofMeter (name : Text) (serial : Nat) (bs : List Block) : List Block :=
  bs.filter fun b => b.meter = name ∧ b.serial = serial

theorem ofMeter_append (name : Text) (serial : Nat) (bs more : List Block) :
    ofMeter name serial (bs ++ more) = ofMeter name serial bs ++ ofMeter name serial more :=
  List.filter_append ..

theorem endedAll_append (bs more : List Block) :
    endedAll (bs ++ more) = endedAll bs ++ endedAll more := by
  induction bs with
  | nil => rfl
  | cons b bs ih => rw [List.cons_append, endedAll, endedAll, ih, List.append_assoc]

mutual

/-- What is entered ends, each block once. -/
theorem ended_perm_entered (b : Block) : b.ended.Perm b.entered := by
  cases b with
  | mk meter serial stage inner =>
    rw [ended, entered]
    exact (List.perm_append_singleton _ _).trans ((endedAll_perm_enteredAll inner).cons _)

/-- What is entered in a forest ends, each block once. -/
theorem endedAll_perm_enteredAll (bs : List Block) : (endedAll bs).Perm (enteredAll bs) := by
  cases bs with
  | nil => exact .refl _
  | cons b bs =>
    rw [endedAll, enteredAll]
    exact (ended_perm_entered b).append (endedAll_perm_enteredAll bs)

end

end Block

namespace Activity

mutual

/-- The message that an activity fails with, if it does. A block fails with the first
    failure inside, or else at its end. -/
def failure? : Activity → Option Text
  | measure _ _ block failure => (failureAll? block).or failure
  | make .. | startTracing | stopTracing | attempt _ | summary _ | close _ => none

/-- The message of the first failure among activities in turn, if there is one. -/
def failureAll? : List Activity → Option Text
  | [] => none
  | a :: as => a.failure?.or (failureAll? as)

end

end Activity

namespace Bench

/-! ## The blocks of activities -/

/-- What has a result has no failure. -/
theorem eq_none_of_ok {α : Type} {failure? : Option Text} {r : α}
    (h : ∀ e, (.ok r : Except Text α) = .error e ↔ failure? = some e) : failure? = none :=
  Option.eq_none_iff_forall_ne_some.2 fun e he => nomatch (h e).2 he

section Course

variable (seconds megabytes : Text)

mutual

/-- Whether an activity fails does not depend on the bench. -/
theorem fst_perform_eq_error_iff (a : Activity) (b : Bench) (e : Text) :
    (perform seconds megabytes a b).1 = .error e ↔ a.failure? = some e := by
  cases a with
  | make | startTracing | stopTracing | summary | close => simp [perform, Activity.failure?]
  | measure meter stage block failure =>
    have ih := fst_performAll_eq_error_iff block b
    rw [perform, Activity.failure?]
    cases hr : performAll seconds megabytes block b with
    | mk results b' =>
      rw [hr] at ih
      cases results with
      | error e' => simp [(ih e').1 rfl]
      | ok rs => cases failure <;> simp [eq_none_of_ok ih]
  | attempt a =>
    rw [perform, Activity.failure?]
    split <;> simp

/-- Whether activities in turn fail does not depend on the bench. -/
theorem fst_performAll_eq_error_iff (as : List Activity) (b : Bench) (e : Text) :
    (performAll seconds megabytes as b).1 = .error e ↔ Activity.failureAll? as = some e := by
  cases as with
  | nil => simp [performAll, Activity.failureAll?]
  | cons a as =>
    have iha := fst_perform_eq_error_iff a b
    rw [performAll, Activity.failureAll?]
    cases hr : perform seconds megabytes a b with
    | mk result b' =>
      rw [hr] at iha
      cases result with
      | error e' => simp [(iha e').1 rfl]
      | ok r =>
        rw [eq_none_of_ok iha, Option.none_or, ← fst_performAll_eq_error_iff as b' e]
        dsimp only
        split <;> next h => simp [h]

end

mutual

/-- The blocks that are entered in an activity. A block belongs to the meter that has
    the name when it is entered; if there is none, there is no block, but what is
    inside. -/
def blocks : Activity → Bench → List Block
  | .measure meter stage block _, b =>
    match b.meters.get? meter with
    | some m => [⟨meter, m.serial, stage, blocksAll block b⟩]
    | none => blocksAll block b
  | .attempt a, b => blocks a b
  | .make .., _ | .startTracing, _ | .stopTracing, _ | .summary _, _ | .close _, _ => []

/-- The blocks that are entered in activities in turn, up to the first failure. -/
def blocksAll : List Activity → Bench → List Block
  | [], _ => []
  | a :: as, b => blocks a b ++
    if a.failure?.isSome then [] else blocksAll as (perform seconds megabytes a b).2

end

/-! ## Blocks and their ends -/

mutual

/-- What the course of an activity takes down with a meter are its blocks, in the order of
    their ends. -/
theorem filterMap_metric?_course (name : Text) (m : Meter) (a : Activity) (b : Bench) :
    (course seconds megabytes a b).filterMap (Step.metric? name m) =
      (Block.ofMeter name m.serial (Block.endedAll (blocks seconds megabytes a b))).map
        fun block => m.metric block.stage seconds megabytes := by
  cases a with
  | make | startTracing | stopTracing | summary | close => rfl
  | measure meter stage block failure =>
    rw [course, List.filterMap_append, filterMap_metric?_courseAll name m block b, blocks]
    cases b.meters.get? meter with
    | none =>
      -- There is nothing to take the stage down with.
      simp [Step.metric?]
    | some m' =>
      -- The block ends behind those inside, and so does the step.
      simp only [Block.endedAll, Block.ended, List.append_nil, Block.ofMeter_append,
        List.map_append]
      congr 1
      by_cases hown : meter = name ∧ m'.serial = m.serial
      · simp [Step.metric?, Block.ofMeter, hown]
      · simp [Step.metric?, Block.ofMeter, @eq_comm _ m.serial m'.serial, hown]
  | attempt a => exact filterMap_metric?_course name m a b

/-- What activities in turn take down with a meter are its blocks, in the order of their
    ends. -/
theorem filterMap_metric?_courseAll (name : Text) (m : Meter) (as : List Activity) (b : Bench) :
    (courseAll seconds megabytes as b).filterMap (Step.metric? name m) =
      (Block.ofMeter name m.serial (Block.endedAll (blocksAll seconds megabytes as b))).map
        fun block => m.metric block.stage seconds megabytes := by
  cases as with
  | nil => rfl
  | cons a as =>
    rw [courseAll, blocksAll, List.filterMap_append, filterMap_metric?_course name m a b,
      Block.endedAll_append, Block.ofMeter_append, List.map_append]
    congr 1
    cases hp : perform seconds megabytes a b with
    | mk result b' =>
      have hfails := fst_perform_eq_error_iff seconds megabytes a b
      rw [hp] at hfails
      cases result with
      | error e => simp [(hfails e).1 rfl, Block.endedAll, Block.ofMeter]
      | ok r =>
        rw [eq_none_of_ok hfails]
        exact filterMap_metric?_courseAll name m as b'

end

end Course

/-- Whatever was done before, and whatever activities are done then: a meter that was made, and
    that no other one of its name has replaced, takes down its own blocks among those that are
    entered, each once, also if it fails, and in the order in which they end. A metric that it
    has taken down at some moment is still there, in its place, at any later one, and has memory
    figures if and only if the meter was made to track memory. -/
theorem blocks_taken_down_as_they_end {seconds megabytes : Text} {past : List Step}
    {activities : List Activity} {before since : List Step} {name : Text} {tracksMemory : Bool}
    (hmade : past ++ courseAll seconds megabytes activities (ofSteps past) =
      before ++ Step.make name tracksMemory :: since)
    (hstays : ∀ tracksMemory, .make name tracksMemory ∉ since) :
    let blocks := blocksAll seconds megabytes activities (ofSteps past)
    ∃ m, (performAll seconds megabytes activities (ofSteps past)).2.meters.get? name = some m ∧
      m.serial = (ofSteps before).made ∧
      m.metrics = (ofSteps past).metricsOf name m.serial ++
        (Block.ofMeter name m.serial (Block.endedAll blocks)).map
          (fun block => m.metric block.stage seconds megabytes) ∧
      (Block.endedAll blocks).Perm (Block.enteredAll blocks) ∧
      (∀ early later, early <+: later →
        later <+: courseAll seconds megabytes activities (ofSteps past) →
        (ofSteps (past ++ early)).metricsOf name m.serial <+:
          (ofSteps (past ++ later)).metricsOf name m.serial) ∧
      ∀ metric ∈ m.metrics, (metric.memory.isSome ↔ tracksMemory = true) := by
  intro blocks
  have hpast := sound_ofSteps past
  have htimely := hpast.timely_courseAll seconds megabytes activities
  obtain ⟨m, hm, hserial, htracks⟩ := exists_get?_after (get?_make (ofSteps before) name _) hstays
  have hend : (ofSteps past).after (courseAll seconds megabytes activities (ofSteps past)) =
      ((ofSteps before).make name tracksMemory).after since := by
    rw [← ofSteps_append, hmade, ofSteps_append, after_cons, Step.take]
  rw [← hend] at hm
  refine ⟨m, ?_, hserial, ?_, Block.endedAll_perm_enteredAll blocks, ?_, fun metric hmetric => ?_⟩
  · rw [snd_performAll, hm]
  · rw [hpast.metrics_after htimely hm, filterMap_metric?_courseAll]
  · rintro early _ ⟨mid, rfl⟩ ⟨rest, hrest⟩
    rw [← hrest, List.append_assoc] at htimely hm
    rw [after_append, ← ofSteps_append] at hm
    have hearly := sound_ofSteps (past ++ early)
    rw [timely_append, ← ofSteps_append] at htimely
    rw [← List.append_assoc, ofSteps_append _ mid, hearly.metricsOf_after htimely.2 hm]
    exact List.prefix_append _ _
  · rw [(hpast.after _).memory hm metric hmetric, htracks]

/-- Two meters, the first of which tracks memory and has taken down a stage: the innermost of
    three blocks fails, and the failure is caught around the outermost one. The tracing is
    stopped inside. -/
theorem two_meters_taken_down :
    let a : Text := ['a']
    let b : Text := ['b']
    let before : List Step := [.make b false, .takeDown a (some 0) ['o'] ['1'] ['2']]
    let past : List Step := .make a true :: before
    let activities : List Activity :=
      [.attempt (.measure a ['x'] [.measure b ['y'] [.stopTracing,
          .measure a ['z'] [] (some ['e']), .measure a ['u'] [] none] none] none),
        .measure b ['w'] [.startTracing] none]
    (∀ tracksMemory, .make a tracksMemory ∉
        before ++ courseAll [] [] activities (ofSteps past)) ∧
      ∃ m, (performAll [] [] activities (ofSteps past)).2.meters.get? a = some m ∧
        m.metrics.map Metric.stage = [['o'], ['z'], ['x']] ∧
        ∀ metric ∈ m.metrics, metric.memory.isSome := by
  intro a b before past activities
  have hmade : past ++ courseAll [] [] activities (ofSteps past) =
      [] ++ Step.make a true :: (before ++ courseAll [] [] activities (ofSteps past)) := rfl
  have hstays : ∀ tracksMemory, .make a tracksMemory ∉
      before ++ courseAll [] [] activities (ofSteps past) := by
    decide
  obtain ⟨m, hm, hserial, hmetrics, -, -, hmemory⟩ := blocks_taken_down_as_they_end hmade hstays
  have hbefore : ((ofSteps past).metricsOf a 0).map Metric.stage = [['o']] := by decide
  have hblocks : (Block.ofMeter a 0 (Block.endedAll
      (blocksAll [] [] activities (ofSteps past)))).map Block.stage = [['z'], ['x']] := by decide
  refine ⟨hstays, m, hm, ?_, fun metric hmetric => (hmemory metric hmetric).2 rfl⟩
  rw [hmetrics, show m.serial = 0 from hserial, List.map_append, hbefore, List.map_map]
  exact congrArg ([['o']] ++ ·) hblocks

end Bench

end TestGrid
