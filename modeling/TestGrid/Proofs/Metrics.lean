import TestGrid.Proofs.Tracing

/-!
# What meters take down

A step either makes a meter of a name, or changes the one that there is
(`get?_take_eq_some`). A change only adds to its metrics, at the end: at most the
one that the step takes down with the meter, known by its name and its number
(`Step.metric?`). So the metrics of a meter are those that the steps have taken down
with it, in their order (`Sound.metrics_after`), and at every moment it has those
that were taken down up to then (`Sound.metricsOf_after`).

A meter that takes the place of another one of its name does not inherit its
metrics, and neither does it get those of a block that the other one measures, for
the number of a meter is new when it is made (`Timely`).
-/

namespace TestGrid.Bench

/-! ## What a step makes of a meter -/

namespace Step

variable (s : Step) (name : Text) (m : Meter)

/-- What a step makes of the meter of a name, unless it makes a new one. -/
def change : Step → Meter → Meter
  | takeDown name' serial stage seconds megabytes, m =>
    if name' = name ∧ some m.serial = serial then m.takeDown stage seconds megabytes else m
  | close name', m => if name' = name then { m with ownsTracing := false } else m
  | make .., m | startTracing, m | stopTracing, m => m

/-- The metric that a step takes down with the meter of a name. -/
def metric? : Step → Option Metric
  | takeDown name' serial stage seconds megabytes =>
    if name' = name ∧ some m.serial = serial then some (m.metric stage seconds megabytes)
    else none
  | make .. | startTracing | stopTracing | close _ => none

/-- The number of the meter that a step takes down with. -/
def serial? : Step → Option Nat
  | takeDown _ serial .. => serial
  | make .. | startTracing | stopTracing | close _ => none

theorem serial_change : (s.change name m).serial = m.serial := by
  cases s <;> rw [change] <;> split <;> rfl

theorem tracksMemory_change : (s.change name m).tracksMemory = m.tracksMemory := by
  cases s <;> rw [change] <;> split <;> rfl

/-- Metrics are only added, at the end. -/
theorem metrics_change : (s.change name m).metrics = m.metrics ++ (s.metric? name m).toList := by
  cases s with
  | takeDown =>
    rw [change, metric?]
    split
    · rfl
    · exact (List.append_nil _).symm
  | close =>
    rw [change]
    split <;> exact (List.append_nil _).symm
  | make | startTracing | stopTracing => exact (List.append_nil _).symm

variable {s name m}

/-- A metric has memory figures if and only if the meter tracks memory. -/
theorem isSome_memory_of_metric? {metric : Metric} (h : s.metric? name m = some metric) :
    metric.memory.isSome = m.tracksMemory := by
  cases s with
  | takeDown =>
    rw [metric?] at h
    split at h
    · cases h
      rw [Meter.metric]
      cases m.tracksMemory <;> rfl
    · cases h
  | make | startTracing | stopTracing | close => cases h

theorem metric?_eq_none (h : s.serial? ≠ some m.serial) : s.metric? name m = none := by
  cases s with
  | takeDown => exact if_neg fun hs => h hs.2.symm
  | make | startTracing | stopTracing | close => rfl

theorem metric?_change (s' : Step) : s.metric? name (s'.change name m) = s.metric? name m := by
  cases s with
  | takeDown => simp only [metric?, serial_change, Meter.metric, tracksMemory_change]
  | make | startTracing | stopTracing | close => rfl

end Step

variable {b : Bench} {s : Step} {steps : List Step} {name : Text} {m : Meter}

theorem get?_make (b : Bench) (name : Text) (tracksMemory : Bool) :
    (b.make name tracksMemory).meters.get? name =
      some ⟨b.made, tracksMemory, tracksMemory && b.tracing.isNone, []⟩ :=
  (Roster.get?_insert ..).trans (if_pos rfl)

/-- Closing a meter changes nothing of it but what it owns. -/
theorem get?_close (b : Bench) (name name' : Text) :
    (b.close name).meters.get? name' =
      if name' = name then (b.meters.get? name).map fun m => { m with ownsTracing := false }
      else b.meters.get? name' := by
  rw [close]
  cases hm : b.meters.get? name with
  | none =>
    dsimp only
    split
    · next hn => rw [hn, hm, Option.map_none]
    · rfl
  | some m =>
    by_cases ho : m.ownsTracing = true
    · simp only [if_pos ho, Roster.get?_insert, Option.map_some]
    · have hsame : { m with ownsTracing := false } = m := by simp [← Bool.eq_false_iff.2 ho]
      simp only [if_neg ho, Option.map_some, hsame]
      split
      · next hn => rw [hn, hm]
      · rfl

/-- A step that makes no new meter of the name changes the one that there is. -/
theorem get?_take (hs : ∀ tracksMemory, s ≠ .make name tracksMemory) (b : Bench) :
    (s.take b).meters.get? name = (b.meters.get? name).map (s.change name) := by
  cases s with
  | make name' tracksMemory =>
    have hn : name ≠ name' := by
      rintro rfl
      exact hs tracksMemory rfl
    rw [Step.take, make, Roster.get?_insert, if_neg hn]
    exact Option.map_id'.symm
  | startTracing | stopTracing => exact Option.map_id'.symm
  | takeDown name' | close name' =>
    simp only [Step.take, takeDown, get?_update, get?_close]
    by_cases hn : name = name'
    · subst hn
      rw [if_pos rfl]
      cases b.meters.get? name <;> simp [Step.change]
    · rw [if_neg hn]
      cases b.meters.get? name <;> simp [Step.change, Ne.symm hn]

/-- A meter behind a step has been made by it, or is what it makes of one that there was. -/
theorem get?_take_eq_some (hm : (s.take b).meters.get? name = some m) :
    (∃ tracksMemory, s = .make name tracksMemory ∧ m.serial = b.made ∧ m.metrics = []) ∨
      ∃ m', b.meters.get? name = some m' ∧ s.change name m' = m := by
  by_cases hs : ∃ tracksMemory, s = .make name tracksMemory
  · obtain ⟨tracksMemory, rfl⟩ := hs
    rw [Step.take, get?_make, Option.some_inj] at hm
    subst hm
    exact .inl ⟨tracksMemory, rfl, rfl, rfl⟩
  · rw [get?_take (not_exists.1 hs)] at hm
    exact .inr (Option.map_eq_some_iff.1 hm)

/-! ## Numbers and metrics behind steps -/

/-- The meters of a bench have numbers below that of the next one, and the metrics that
    they have taken down show whether they track memory. -/
structure Sound (b : Bench) : Prop where
  below : ∀ {name m}, b.meters.get? name = some m → m.serial < b.made
  memory : ∀ {name m}, b.meters.get? name = some m →
    ∀ metric ∈ m.metrics, metric.memory.isSome = m.tracksMemory

theorem Sound.take (h : b.Sound) (s : Step) : (s.take b).Sound := by
  constructor
  · intro name m hm
    rcases get?_take_eq_some hm with ⟨tracksMemory, rfl, hserial, -⟩ | ⟨m', hm', rfl⟩
    · rw [hserial]
      exact Nat.lt_succ_self _
    · rw [Step.serial_change]
      exact Nat.lt_of_lt_of_le (h.below hm') (made_le_made_take s b)
  · intro name m hm metric hmetric
    rcases get?_take_eq_some hm with ⟨-, -, -, hmetrics⟩ | ⟨m', hm', rfl⟩
    · exact absurd (hmetrics ▸ hmetric) List.not_mem_nil
    · rw [Step.tracksMemory_change]
      rw [Step.metrics_change, List.mem_append, Option.mem_toList] at hmetric
      exact hmetric.elim (h.memory hm' metric) Step.isSome_memory_of_metric?

theorem Sound.after (h : b.Sound) (steps : List Step) : (b.after steps).Sound :=
  after_induction h fun s _ _ h => h.take s

theorem sound_ofSteps (past : List Step) : (ofSteps past).Sound :=
  Sound.after ⟨fun h => absurd h.symm (Option.some_ne_none _),
    fun h => absurd h.symm (Option.some_ne_none _)⟩ past

/-- Stages are taken down with meters that have been made before. -/
def Timely : Bench → List Step → Prop
  | _, [] => True
  | b, s :: steps => (∀ n, s.serial? = some n → n < b.made) ∧ Timely (s.take b) steps

theorem timely_append {more : List Step} :
    Timely b (steps ++ more) ↔ Timely b steps ∧ Timely (b.after steps) more := by
  induction steps generalizing b with
  | nil => exact (and_iff_right trivial).symm
  | cons s steps ih => rw [List.cons_append, Timely, Timely, ih, and_assoc, after_cons]

theorem Timely.lt_made (h : Timely b steps) (hs : s ∈ steps) {n : Nat} (hn : s.serial? = some n) :
    n < (b.after steps).made := by
  induction steps generalizing b with
  | nil => exact absurd hs List.not_mem_nil
  | cons s' steps ih =>
    rw [after_cons]
    rcases List.mem_cons.1 hs with rfl | hs
    · exact Nat.lt_of_lt_of_le (h.1 n hn)
        (Nat.le_trans (made_le_made_take s b) (made_le_made_after _ steps))
    · exact ih h.2 hs

section Course

variable (seconds megabytes : Text)

mutual

/-- The meter of a block is made before the block is entered, and so before it ends. -/
theorem Sound.timely_course {b : Bench} (h : b.Sound) (a : Activity) :
    Timely b (course seconds megabytes a b) := by
  cases a with
  | make | startTracing | stopTracing | close => exact ⟨fun _ hn => (nomatch hn), trivial⟩
  | summary => trivial
  | measure meter stage block failure =>
    rw [course, timely_append]
    refine ⟨h.timely_courseAll block, fun n hn => ?_, trivial⟩
    obtain ⟨m, hm, rfl⟩ := Option.map_eq_some_iff.1 hn
    exact Nat.lt_of_lt_of_le (h.below hm) (made_le_made_after b _)
  | attempt a => exact h.timely_course a

theorem Sound.timely_courseAll {b : Bench} (h : b.Sound) (as : List Activity) :
    Timely b (courseAll seconds megabytes as b) := by
  cases as with
  | nil => trivial
  | cons a as =>
    rw [courseAll, timely_append, ← snd_perform]
    refine ⟨h.timely_course a, ?_⟩
    have hafter := h.after (course seconds megabytes a b)
    rw [← snd_perform] at hafter
    cases hp : perform seconds megabytes a b with
    | mk result b' =>
      rw [hp] at hafter
      cases result with
      | error e => trivial
      | ok r => exact hafter.timely_courseAll as

end

end Course

/-- The metrics of the meter of a name and a number, or none if there is no such meter. -/
def metricsOf (b : Bench) (name : Text) (serial : Nat) : List Metric :=
  ((b.meters.get? name).filter fun m => m.serial = serial).elim [] Meter.metrics

theorem metricsOf_serial (h : b.meters.get? name = some m) :
    b.metricsOf name m.serial = m.metrics := by
  simp [metricsOf, h, Option.filter_some]

/-- A meter that has not been made has taken down nothing. -/
theorem Sound.metricsOf_of_le (h : b.Sound) {n : Nat} (hn : b.made ≤ n) :
    b.metricsOf name n = [] := by
  rw [metricsOf]
  cases hm : b.meters.get? name with
  | none => rfl
  | some m =>
    have hne : m.serial ≠ n := Nat.ne_of_lt (Nat.lt_of_lt_of_le (h.below hm) hn)
    simp [Option.filter_some, hne]

/-- Behind some steps, a meter has the metrics that it had before, and then those that the
    steps take down with it. -/
theorem Sound.metrics_after (h : b.Sound) (ht : Timely b steps)
    (hm : (b.after steps).meters.get? name = some m) :
    m.metrics = b.metricsOf name m.serial ++ steps.filterMap (Step.metric? name m) := by
  induction steps using List.reverseRecOn generalizing m with
  | nil =>
    rw [metricsOf_serial (b := b) hm]
    exact (List.append_nil _).symm
  | append_singleton steps s ih =>
    rw [timely_append] at ht
    rw [after_concat] at hm
    rcases get?_take_eq_some hm with ⟨tracksMemory, rfl, hserial, hmetrics⟩ | ⟨m', hm', rfl⟩
    · -- The meter is made last, so nothing of what was there before is about it.
      rw [hmetrics, hserial, h.metricsOf_of_le (made_le_made_after b steps), List.nil_append]
      refine (List.filterMap_eq_nil_iff.2 fun s' hs' => Step.metric?_eq_none fun hn => ?_).symm
      rcases List.mem_append.1 hs' with hs' | hs'
      · exact Nat.lt_irrefl _ (hserial ▸ ht.1.lt_made hs' hn)
      · rw [List.mem_singleton.1 hs'] at hn
        cases hn
    · have hsame : Step.metric? name (s.change name m') = Step.metric? name m' :=
        funext fun s' => s'.metric?_change s
      rw [Step.metrics_change, ih ht.1 hm', Step.serial_change, hsame, List.filterMap_append,
        List.append_assoc]
      congr 2

/-- What a meter has taken down at a moment, if it stays to the end: what it had before, and
    what was taken down with it up to then. -/
theorem Sound.metricsOf_after (h : b.Sound) {more : List Step} (ht : Timely b (steps ++ more))
    (hm : (b.after (steps ++ more)).meters.get? name = some m) :
    (b.after steps).metricsOf name m.serial =
      b.metricsOf name m.serial ++ steps.filterMap (Step.metric? name m) := by
  have hall := h.metrics_after ht hm
  rw [after_append] at hm
  have hrest := (h.after steps).metrics_after (timely_append.1 ht).2 hm
  rw [hall, List.filterMap_append, ← List.append_assoc] at hrest
  exact (List.append_cancel_right hrest).symm

/-- A meter stays at its place as long as no other one of its name is made. -/
theorem exists_get?_after (hm : b.meters.get? name = some m)
    (hs : ∀ tracksMemory, .make name tracksMemory ∉ steps) :
    ∃ m', (b.after steps).meters.get? name = some m' ∧ m'.serial = m.serial ∧
      m'.tracksMemory = m.tracksMemory := by
  refine after_induction (P := fun b => ∃ m', b.meters.get? name = some m' ∧
    m'.serial = m.serial ∧ m'.tracksMemory = m.tracksMemory) ⟨m, hm, rfl, rfl⟩ ?_
  rintro s hmem b ⟨m', hm', hserial, htracks⟩
  refine ⟨s.change name m', ?_, ?_, ?_⟩
  · rw [get?_take fun t he => hs t (he ▸ hmem), hm', Option.map_some]
  · rw [Step.serial_change, hserial]
  · rw [Step.tracksMemory_change, htracks]

end TestGrid.Bench
