import TestGrid.Meter

/-!
# The course of an activity

What is done at a bench is done step by step: a meter is made or closed, takes
down a stage, or the tracing is started or stopped from outside. The *course* of
an activity are its steps, up to the failure if there is one. A measured block
stands in it with the steps inside, and behind them the stage that is taken down.

* `snd_perform`, `snd_performAll`: the bench after an activity is the bench after
  its course. So the benches in between, also those inside a block, are the ones
  after the beginnings of the course.
* `owner?`: which meter of a name owns the tracing, by its number. This and the
  tracing are all that the steps need to know of each other (`owner?_take`,
  `tracing_take`).
-/

namespace TestGrid.Bench

/-- What is done at a bench at once. -/
inductive Step where
  | make (meter : Text) (tracksMemory : Bool)
  | startTracing
  | stopTracing
  /-- Takes down a stage with the meter, if it has the number. -/
  | takeDown (meter : Text) (serial : Option Nat) (stage seconds megabytes : Text)
  | close (meter : Text)
  deriving DecidableEq, Repr

namespace Step

/-- The bench after a step. -/
def take (b : Bench) : Step → Bench
  | make meter tracksMemory => b.make meter tracksMemory
  | startTracing => b.startTracing
  | stopTracing => b.stopTracing
  | takeDown meter serial stage seconds megabytes =>
    b.takeDown meter serial stage seconds megabytes
  | close meter => b.close meter

/-- The name of the meter that a step makes. -/
def made? : Step → Option Text
  | make meter _ => some meter
  | _ => none

/-- A step that makes or closes a meter of the name. -/
def Touches (name : Text) (s : Step) : Prop := (∃ tracksMemory, s = make name tracksMemory) ∨
  s = close name

end Step

/-- The bench after steps, one after the other. -/
def after (b : Bench) (steps : List Step) : Bench := steps.foldl Step.take b

theorem after_cons (b : Bench) (s : Step) (steps : List Step) :
    b.after (s :: steps) = (s.take b).after steps := rfl

theorem after_append (b : Bench) (steps more : List Step) :
    b.after (steps ++ more) = (b.after steps).after more := List.foldl_append

theorem after_concat (b : Bench) (steps : List Step) (s : Step) :
    b.after (steps ++ [s]) = s.take (b.after steps) := after_append b steps [s]

/-- What each of the steps keeps is kept by all of them. -/
theorem after_induction {P : Bench → Prop} {b : Bench} {steps : List Step} (hb : P b)
    (hstep : ∀ s ∈ steps, ∀ b : Bench, P b → P (s.take b)) : P (b.after steps) :=
  List.foldlRecOn steps Step.take hb fun b h s hs => hstep s hs b h

/-! ## Courses -/

section Course

variable (seconds megabytes : Text)

mutual

/-- The steps of an activity at a bench. -/
def course : Activity → Bench → List Step
  | .make meter tracksMemory, _ => [.make meter tracksMemory]
  | .startTracing, _ => [.startTracing]
  | .stopTracing, _ => [.stopTracing]
  | .measure meter stage block _, b =>
    let serial := (b.meters.get? meter).map Meter.serial
    courseAll block b ++ [.takeDown meter serial stage seconds megabytes]
  | .attempt a, b => course a b
  | .summary _, _ => []
  | .close meter, _ => [.close meter]

/-- The steps of activities in turn, up to the first failure. -/
def courseAll : List Activity → Bench → List Step
  | [], _ => []
  | a :: as, b => course a b ++
    match perform seconds megabytes a b with
    | (.error _, _) => []
    | (.ok _, b) => courseAll as b

end

mutual

/-- An activity leads to the bench after its course. -/
theorem snd_perform (a : Activity) (b : Bench) :
    (perform seconds megabytes a b).2 = b.after (course seconds megabytes a b) := by
  cases a with
  | make | startTracing | stopTracing | summary | close => rfl
  | measure meter stage block failure =>
    -- However the block ends, the stage is taken down behind it.
    rw [course, after_concat, ← snd_performAll block b, perform]
    dsimp only
    split <;> rfl
  | attempt a =>
    rw [course, ← snd_perform a b, perform]
    split <;> next h => rw [h]

/-- Activities lead to the bench after their course. -/
theorem snd_performAll (as : List Activity) (b : Bench) :
    (performAll seconds megabytes as b).2 = b.after (courseAll seconds megabytes as b) := by
  cases as with
  | nil => rfl
  | cons a as =>
    rw [courseAll, after_append, ← snd_perform a b, performAll]
    cases h : perform seconds megabytes a b with
    | mk result b' =>
      cases result with
      | error e => rfl
      | ok r =>
        dsimp only
        rw [← snd_performAll as b']
        split <;> next h => rw [h]

end

end Course

/-! ## Who owns the tracing -/

/-- The number of the meter of a name, if it owns the tracing. -/
def owner? (b : Bench) (name : Text) : Option Nat :=
  ((b.meters.get? name).filter Meter.ownsTracing).map Meter.serial

theorem owner?_eq_some_iff {b : Bench} {name : Text} {n : Nat} : b.owner? name = some n ↔
    ∃ m, b.meters.get? name = some m ∧ m.ownsTracing = true ∧ m.serial = n := by
  simp [owner?, Option.filter_eq_some_iff, and_assoc]

/-- Changing a meter changes no other one. -/
theorem get?_update (b : Bench) (name : Text) (f : Meter → Meter) (name' : Text) :
    (b.update name f).meters.get? name' =
      if name' = name then (b.meters.get? name).map f else b.meters.get? name' := by
  rw [update]
  split
  · next m h =>
    rw [h]
    exact Roster.get?_insert b.meters name name' (f m)
  · next h =>
    split
    · next he => rw [he, h, Option.map_none]
    · rfl

/-- A meter that is made owns the tracing if it starts it. -/
theorem owner?_make (b : Bench) (name : Text) (tracksMemory : Bool) (name' : Text) :
    (b.make name tracksMemory).owner? name' =
      if name' = name then if tracksMemory = true ∧ b.tracing = none then some b.made else none
      else b.owner? name' := by
  rw [owner?, make, Roster.get?_insert]
  split
  · cases tracksMemory <;> cases b.tracing <;> rfl
  · rfl

/-- What a meter takes down has nothing to do with the tracing. -/
theorem owner?_takeDown (b : Bench) (name : Text) (serial : Option Nat)
    (stage seconds megabytes name' : Text) :
    (b.takeDown name serial stage seconds megabytes).owner? name' = b.owner? name' := by
  rw [takeDown, owner?, get?_update, owner?]
  split
  · next he =>
    rw [he]
    cases b.meters.get? name with
    | none => rfl
    | some m =>
      rw [Option.map_some]
      split
      · simp [Option.filter_some, Meter.takeDown]
      · rfl
  · rfl

/-- A meter that owns nothing is closed without effect, and so is one that is not
    there. -/
theorem close_of_not_owner {b : Bench} {name : Text} (h : b.owner? name = none) :
    b.close name = b := by
  rw [close]
  split
  · next m hm =>
    refine if_neg fun ho => ?_
    rw [owner?_eq_some_iff.2 ⟨m, hm, ho, rfl⟩] at h
    cases h
  · rfl

/-- A closed meter stops the tracing if it owns it, and owns nothing any more. -/
theorem close_of_owner {b : Bench} {name : Text} {n : Nat} (h : b.owner? name = some n) :
    (b.close name).tracing = none ∧ (b.close name).made = b.made ∧
      ∀ name', (b.close name).owner? name' = if name' = name then none else b.owner? name' := by
  obtain ⟨m, hm, ho, -⟩ := owner?_eq_some_iff.1 h
  rw [close, hm]
  dsimp only
  rw [if_pos ho]
  refine ⟨rfl, rfl, fun name' => ?_⟩
  rw [owner?, Roster.get?_insert]
  split <;> rfl

theorem owner?_close (b : Bench) (name name' : Text) :
    (b.close name).owner? name' = if name' = name then none else b.owner? name' := by
  cases h : b.owner? name with
  | some n => exact (close_of_owner h).2.2 name'
  | none =>
    rw [close_of_not_owner h]
    split
    · next he => rw [he, h]
    · rfl

/-- Only making or closing a meter changes what it owns. -/
theorem owner?_take {s : Step} {name : Text} (h : ¬s.Touches name) (b : Bench) :
    (s.take b).owner? name = b.owner? name := by
  cases s with
  | make name' t =>
    rw [Step.take, owner?_make, if_neg]
    rintro rfl
    exact h (.inl ⟨t, rfl⟩)
  | close name' =>
    rw [Step.take, owner?_close, if_neg]
    rintro rfl
    exact h (.inr rfl)
  | startTracing | stopTracing => rfl
  | takeDown => exact owner?_takeDown ..

/-- Who owns the tracing behind a step: who did before and was not touched, and a meter
    that the step has made while the tracing was off. -/
theorem owner?_take_eq_some_iff {s : Step} {b : Bench} {name : Text} {n : Nat} :
    (s.take b).owner? name = some n ↔ (¬s.Touches name ∧ b.owner? name = some n) ∨
      (s = .make name true ∧ b.tracing = none ∧ b.made = n) := by
  by_cases hs : s.Touches name
  · rcases hs with ⟨tracksMemory, rfl⟩ | rfl
    · rw [Step.take, owner?_make, if_pos rfl]
      simp [Step.Touches, and_assoc]
    · rw [Step.take, owner?_close, if_pos rfl]
      simp [Step.Touches]
  · rw [owner?_take hs]
    refine ⟨fun h => .inl ⟨hs, h⟩, ?_⟩
    rintro (⟨-, h⟩ | ⟨rfl, -⟩)
    · exact h
    · exact absurd (.inl ⟨true, rfl⟩) hs

/-- What a step does to the tracing: it leaves it as it is, stops it, or starts it if
    it is off, from outside or by a meter that it makes. -/
theorem tracing_take (s : Step) (b : Bench) :
    (s.take b).tracing = b.tracing ∨
      ((s.take b).tracing = none ∧
        (s = .stopTracing ∨ ∃ name n, s = .close name ∧ b.owner? name = some n)) ∨
      b.tracing = none ∧
        ((s = .startTracing ∧ (s.take b).tracing = some .outside) ∨
          ∃ name, s = .make name true ∧ (s.take b).tracing = some (.meter b.made)) := by
  cases s with
  | make name t =>
    cases ht : b.tracing with
    | some x => exact .inl (by simp [Step.take, make, ht])
    | none =>
      cases t with
      | false => exact .inl (by simp [Step.take, make, ht])
      | true => exact .inr (.inr ⟨rfl, .inr ⟨name, rfl, by simp [Step.take, make, ht]⟩⟩)
  | startTracing =>
    cases ht : b.tracing with
    | some x => exact .inl (by simp [Step.take, startTracing, ht])
    | none => exact .inr (.inr ⟨rfl, .inl ⟨rfl, by simp [Step.take, startTracing, ht]⟩⟩)
  | stopTracing => exact .inr (.inl ⟨rfl, .inl rfl⟩)
  | takeDown name =>
    refine .inl ?_
    rw [Step.take, takeDown, update]
    split <;> rfl
  | close name =>
    cases h : b.owner? name with
    | some n => exact .inr (.inl ⟨(close_of_owner h).1, .inr ⟨name, n, rfl, h⟩⟩)
    | none => exact .inl (by rw [Step.take, close_of_not_owner h])

/-- No number is given twice. -/
theorem made_le_made_take (s : Step) (b : Bench) : b.made ≤ (s.take b).made := by
  cases s with
  | make => exact Nat.le_succ _
  | startTracing | stopTracing => exact Nat.le_refl _
  | takeDown =>
    rw [Step.take, takeDown, update]
    split <;> exact Nat.le_refl _
  | close name =>
    cases h : b.owner? name with
    | some n => exact Nat.le_of_eq (close_of_owner h).2.1.symm
    | none => exact Nat.le_of_eq (congrArg made (close_of_not_owner h)).symm

end TestGrid.Bench
