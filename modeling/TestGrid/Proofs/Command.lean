import TestGrid.Command.Invocation
import TestGrid.Proofs.Plan
import TestGrid.Proofs.Storage

/-!
# The statuses of runs

With which status the program ends is known from the texts that a run takes in,
if it keeps no log file: a run that generates a grid ends with that of the plan
(`ends_generate`), and one that explains a component with that of the versions
that would be selected for it (`ends_explain`). A fault has its status whether
or not a command answers for it (`statusOf`).

The first run is followed in two parts, what it takes in (`takeIn`) and what it
does with that (`makeAndSave`), up to the tree that it leaves: the one that it
has found (`reads_generate`), one with the grid (`exists_leads_generate`), or
one with the same files (`exists_leads_generate_error`).
-/

namespace TestGrid

open Fallible Files Work Journal Storage

namespace Command

variable {α β : Type} {directory : Path} {tree tree' : Tree}

/-- The status of an outcome, given the statuses of its results. -/
def statusOf (status : α → Nat) : Except Fault α → Nat
  | .ok a => status a
  | .error f => f.exitStatus?.getD 1

/-- A rule that cannot be tried has the status 1. -/
theorem status_ofMatch (m : MatchFault) : (Fault.ofMatch m).exitStatus?.getD 1 = 1 := by
  rcases m with (_ | _) | _ <;> rfl

/-- A sequence has the status of what comes behind. -/
theorem statusOf_bind (status : β → Nat) (x : Except Fault α) (f : α → Except Fault β) :
    statusOf status (x >>= f) = statusOf (fun a => statusOf status (f a)) x := by
  cases x <;> rfl

/-- In the directory of the tree, and without a log file, the program ends with
    the status. -/
def Ends (directory : Path) (tree : Tree) (run : Work Nat) (status : Nat) : Prop :=
  ∃ tree' outcome, Leads directory tree tree' run outcome ∧ exitStatus outcome = status

theorem Ends.of_ok {run : Work Nat} {status : Nat}
    (h : Leads directory tree tree' run (.ok status)) : Ends directory tree run status :=
  ⟨tree', _, h, rfl⟩

theorem Ends.of_error {run : Work Nat} {f : Fault}
    (h : Leads directory tree tree' run (.error f)) : Ends directory tree run 1 :=
  ⟨tree', _, h, rfl⟩

/-- Behind a step that ends with a result, the run decides the status. -/
theorem Ends.behind {step : Work α} {next : α → Work Nat} {a : α} {status : Nat}
    (hs : Leads directory tree tree' step (.ok a)) (hn : Ends directory tree' (next a) status) :
    Ends directory tree (step >>= next) status := by
  obtain ⟨tree'', outcome, h, he⟩ := hn
  exact ⟨tree'', outcome, hs.andThen h, he⟩

/-- What an outcome becomes if its fault is answered for: the exit status of the
    fault, unless it has none. -/
def answered : Except Fault Nat → Except Fault Nat
  | .ok status => .ok status
  | .error f =>
    match f.exitStatus? with
    | some status => .ok status
    | none => .error f

theorem exitStatus_answered (outcome : Except Fault Nat) :
    exitStatus (answered outcome) = statusOf id outcome := by
  cases outcome with
  | ok status => rfl
  | error f =>
    rw [answered, statusOf]
    cases f.exitStatus? <;> rfl

theorem reads_answerFor (f : Fault) :
    Reads directory tree (answerFor f) (answered (.error f)) := by
  rw [answerFor, answered]
  cases f.exitStatus? with
  | none => exact reads_throw f
  | some status =>
    exact (reads_tell _ _ _).andThen ((reads_showError _).andThen (reads_pure status))

/-- If the step ends with a result, the run goes on with it. -/
theorem perform_orAnswerFor_ok {step : Work α} (next : α → Work Nat) {w : Workspace} {a : α}
    (h : (step.perform w).1 = .ok a) :
    (orAnswerFor step next).perform w = (next a).perform (step.perform w).2 := by
  revert h
  dsimp only [Work.perform, orAnswerFor, ExceptT.run, StateT.run]
  rcases step w with ⟨_, w⟩
  rintro rfl
  rfl

/-- If it fails, the fault is answered for. -/
theorem perform_orAnswerFor_error {step : Work α} (next : α → Work Nat) {w : Workspace} {f : Fault}
    (h : (step.perform w).1 = .error f) :
    (orAnswerFor step next).perform w = (answerFor f).perform (step.perform w).2 := by
  revert h
  dsimp only [Work.perform, orAnswerFor, ExceptT.run, StateT.run]
  rcases step w with ⟨_, w⟩
  rintro rfl
  rfl

/-- A run goes on behind a step that is answered for if the step has a result. -/
theorem leads_orAnswerFor_ok {step : Work α} {next : α → Work Nat} {a : α}
    {outcome : Except Fault Nat} {tree'' : Tree} (hs : Leads directory tree tree' step (.ok a))
    (hn : Leads directory tree' tree'' (next a) outcome) :
    Leads directory tree tree'' (orAnswerFor step next) outcome := by
  intro w hw
  obtain ⟨ho, hw'⟩ := hs w hw
  rw [perform_orAnswerFor_ok next ho]
  exact hn _ hw'

/-- It ends if the step has none. -/
theorem leads_orAnswerFor_error {step : Work α} {f : Fault}
    (hs : Leads directory tree tree' step (.error f)) (next : α → Work Nat) :
    Leads directory tree tree' (orAnswerFor step next) (answered (.error f)) := by
  intro w hw
  obtain ⟨ho, hw'⟩ := hs w hw
  rw [perform_orAnswerFor_error next ho]
  exact reads_answerFor f _ hw'

/-- A run whose step is answered for has the status of the outcome. -/
theorem Ends.orAnswerFor {step : Work α} {next : α → Work Nat} {outcome : Except Fault α}
    {status : α → Nat} (hs : Leads directory tree tree' step outcome)
    (hn : ∀ a, Ends directory tree' (next a) (status a)) :
    Ends directory tree (orAnswerFor step next) (statusOf status outcome) := by
  cases outcome with
  | ok a =>
    obtain ⟨tree'', o, h, he⟩ := hn a
    exact ⟨tree'', o, leads_orAnswerFor_ok hs h, he⟩
  | error f =>
    exact ⟨tree', _, leads_orAnswerFor_error hs next, exitStatus_answered (.error f)⟩

/-- What comes of candidates that must say something. -/
def ifSaid (candidates : Text) (outcome : Except Fault α) : Except Fault α :=
  if Settings.saysNothing candidates then .error (.missing .candidates) else outcome

/-! ## Generating a grid -/

/-- What a run takes in before it makes a plan: the text of the catalog, the path
    for the grid and the text of the rule book. -/
def takeIn (s : Settings) : Work (Text × Path × Text) := do
  let (candidates, rules, output) ← s.check
  tellSetting .candidates candidates
  tellSetting .rules rules.toText
  tellSetting .output output.toText
  let ruleText ← Storage.readRuleText rules
  return (candidates, output, ruleText)

/-- What a run does with what it has taken in. -/
def makeAndSave (fallback : Bool) (taken : Text × Path × Text) :
    Work (Plan × Path × List Stage) := do
  let (plan, stages) ← assemble taken.1 taken.2.2 fallback
  let _ ← Storage.save plan.grid (some taken.2.1) none
  return (plan, taken.2.1, stages ++ [.store])

theorem store_eq (s : Settings) : store s = takeIn s >>= makeAndSave s.fallback := by
  simp only [store, takeIn, makeAndSave, bind_assoc, pure_bind]

/-- Making a plan only reads, and has the outcome of its texts. -/
theorem reads_assemble (catalogText ruleText : Text) (fallback : Bool) :
    Reads directory tree (assemble catalogText ruleText fallback)
      ((Plan.ofTexts catalogText ruleText fallback).map fun plan =>
        (plan, (Plan.assemble catalogText ruleText fallback).result.2.stages)) := by
  rw [assemble]
  rw [← Plan.assemble_result]
  generalize (Plan.assemble catalogText ruleText fallback).result = made
  obtain ⟨outcome, trace⟩ := made
  refine (reads_takeAll trace.notes).andThen ?_
  cases outcome with
  | error f => exact (reads_liftExcept (.error f)).stops
  | ok plan => exact (reads_liftExcept (.ok plan)).andThen (reads_pure _)

/-- Settings of which each says something, with a file of rules that holds a text
    and a path where the grid can be stored. -/
structure Ready (directory : Path) (tree : Tree) (rules output : Path) (ruleText : Text) :
    Prop where
  rules_said : Settings.saysNothing rules.toText = false
  rules_held : HasText directory tree rules ruleText
  output_said : Settings.saysNothing output.toText = false
  output_free : CanStore directory tree output

section Given

variable {rules output : Path} {t : Text} (hr : Settings.saysNothing rules.toText = false)
  (ht : HasText directory tree rules t) (ho : Settings.saysNothing output.toText = false)

include hr ht ho

/-- The settings are found in order if the candidates say something, and the text
    of the rule book is read. -/
theorem reads_takeIn (candidates : Text) (fallback : Bool) :
    Reads directory tree (takeIn ⟨some candidates, some rules, some output, fallback⟩)
      (ifSaid candidates (.ok (candidates, output, t.unifyBreaks))) := by
  rw [takeIn, Settings.check, ifSaid]
  dsimp only
  split
  · exact (reads_throw _).stops.stops
  · rw [if_neg (Bool.eq_false_iff.1 hr)]
    refine Leads.andThen (show Reads directory tree _ (.ok (candidates, rules, output)) from ?_) ?_
    · refine (reads_checkFile ht).andThen ?_
      rw [if_neg (Bool.eq_false_iff.1 ho)]
      exact reads_pure _
    · refine (reads_tell _ _ _).andThen ((reads_tell _ _ _).andThen ((reads_tell _ _ _).andThen ?_))
      exact (reads_readRuleText ht).andThen (reads_pure _)

/-- Storing goes on with what is taken in, if the candidates say something. -/
theorem leads_store {candidates : Text} (hc : Settings.saysNothing candidates = false)
    {fallback : Bool} {outcome : Except Fault (Plan × Path × List Stage)}
    (hmake : Leads directory tree tree'
      (makeAndSave fallback (candidates, output, t.unifyBreaks)) outcome) :
    Leads directory tree tree' (store ⟨some candidates, some rules, some output, fallback⟩)
      outcome := by
  have htake := reads_takeIn hr ht ho candidates fallback
  rw [ifSaid, if_neg (Bool.eq_false_iff.1 hc)] at htake
  rw [store_eq]
  exact htake.andThen hmake

end Given

section Make

variable {candidates ruleText : Text} {fallback : Bool}

/-- Without a plan, nothing is stored. -/
theorem reads_makeAndSave_error {f : Fault}
    (hp : Plan.ofTexts candidates ruleText fallback = .error f) (output : Path) :
    Reads directory tree (makeAndSave fallback (candidates, output, ruleText)) (.error f) := by
  have hmade : Reads directory tree (assemble candidates ruleText fallback) _ :=
    reads_assemble candidates ruleText fallback
  rw [hp] at hmade
  exact hmade.stops

/-- The grid of a plan is stored as it can be. -/
theorem exists_leads_makeAndSave {plan : Plan}
    (hp : Plan.ofTexts candidates ruleText fallback = .ok plan) {output : Path}
    {saved : Except Fault Text}
    (hsave : Leads directory tree tree' (Storage.save plan.grid (some output) none) saved) :
    ∃ stages, Leads directory tree tree' (makeAndSave fallback (candidates, output, ruleText))
      (saved.map fun _ => (plan, output, stages)) := by
  have hmade : Reads directory tree (assemble candidates ruleText fallback) _ :=
    reads_assemble candidates ruleText fallback
  rw [hp] at hmade
  refine ⟨(Plan.assemble candidates ruleText fallback).result.2.stages ++ [.store],
    hmade.andThen ?_⟩
  cases saved with
  | ok text => exact hsave.andThen (reads_pure _)
  | error f => exact hsave.stops

end Make

/-- A run that generates a grid ends as storing the grid does. -/
theorem leads_generate {s : Settings} {outcome : Except Fault (Plan × Path × List Stage)}
    (hstore : Leads directory tree tree' (store s) outcome) (verbose performance : Bool) :
    Leads directory tree tree' (generate ⟨s, verbose, none, performance⟩)
      (answered (outcome.map fun _ => 0)) := by
  refine (reads_setUp .info verbose).andThen ?_
  cases outcome with
  | error f => exact leads_orAnswerFor_error hstore _
  | ok made =>
    refine leads_orAnswerFor_ok hstore ((reads_show _).andThen ?_)
    dsimp only
    split
    · have hmeter : Reads directory tree' (do
          Work.show (meterOf (← get).gauge made.2.2).summary
          return 0) (.ok 0) := by
        refine leads_get fun w _ => ?_
        exact (reads_show _).andThen (reads_pure 0)
      exact hmeter
    · exact reads_pure 0

/-! ### The three ends of a run -/

section Given

variable {candidates t : Text} {rules output : Path} {fallback : Bool}
  (hc : Settings.saysNothing candidates = false)
  (hr : Settings.saysNothing rules.toText = false) (ht : HasText directory tree rules t)
  (ho : Settings.saysNothing output.toText = false)

include hc hr ht ho

/-- Without a plan a run only reads. -/
theorem reads_generate {f : Fault} (hp : Plan.ofTexts candidates t.unifyBreaks fallback = .error f)
    (verbose performance : Bool) :
    Reads directory tree
      (generate ⟨⟨some candidates, some rules, some output, fallback⟩, verbose, none, performance⟩)
      (answered (.error f)) :=
  leads_generate (leads_store hr ht ho hc (reads_makeAndSave_error hp output)) _ _

variable {plan : Plan} (hp : Plan.ofTexts candidates t.unifyBreaks fallback = .ok plan)

include hp

/-- The grid of a plan is stored where it can be. -/
theorem exists_leads_generate (hs : CanStore directory tree output) (verbose performance : Bool) :
    ∃ tree', Leads directory tree tree'
      (generate ⟨⟨some candidates, some rules, some output, fallback⟩, verbose, none, performance⟩)
      (.ok 0) ∧ Stores directory tree tree' output (Text.encode plan.grid.toText) := by
  obtain ⟨tree', hsave, hstores⟩ := exists_leads_save hs plan.grid
  obtain ⟨_, hmake⟩ := exists_leads_makeAndSave hp hsave
  exact ⟨tree', leads_generate (leads_store hr ht ho hc hmake) _ _, hstores⟩

/-- Where it cannot be, the run fails and leaves all files as they are. -/
theorem exists_leads_generate_error (hs : ¬CanStore directory tree output)
    (verbose performance : Bool) :
    ∃ tree' outcome, Leads directory tree tree'
      (generate ⟨⟨some candidates, some rules, some output, fallback⟩, verbose, none, performance⟩)
      outcome ∧ exitStatus outcome = 1 ∧ tree.SameFiles tree' := by
  obtain ⟨tree', f, hsave, hsame, hf⟩ := exists_leads_save_error hs plan.grid
  obtain ⟨_, hmake⟩ := exists_leads_makeAndSave hp hsave
  refine ⟨tree', _, leads_generate (leads_store hr ht ho hc hmake) _ _, ?_, hsame⟩
  rw [exitStatus_answered]
  exact hf

end Given

/-- A run that generates a grid ends with the status of the plan. -/
theorem ends_generate {rules output : Path} {t : Text} (h : Ready directory tree rules output t)
    (candidates : Text) (fallback verbose performance : Bool) :
    Ends directory tree
      (generate ⟨⟨some candidates, some rules, some output, fallback⟩, verbose, none, performance⟩)
      (statusOf (fun _ => 0)
        (ifSaid candidates (Plan.ofTexts candidates t.unifyBreaks fallback))) := by
  obtain ⟨hr, ht, ho, hs⟩ := h
  by_cases hc : Settings.saysNothing candidates = true
  · have htake := reads_takeIn hr ht ho candidates fallback
    rw [ifSaid, if_pos hc] at htake ⊢
    have hstore : Reads directory tree (store ⟨some candidates, some rules, some output, fallback⟩)
        (.error (.missing .candidates)) := by
      rw [store_eq]
      exact htake.stops
    exact ⟨tree, _, leads_generate hstore verbose performance, exitStatus_answered _⟩
  · rw [ifSaid, if_neg hc]
    rw [Bool.not_eq_true] at hc
    cases hp : Plan.ofTexts candidates t.unifyBreaks fallback with
    | error f =>
      exact ⟨tree, _, reads_generate hc hr ht ho hp verbose performance, exitStatus_answered _⟩
    | ok plan =>
      obtain ⟨tree', hlead, -⟩ := exists_leads_generate hc hr ht ho hp hs verbose performance
      exact .of_ok hlead

/-! ## Explaining a component -/

/-- The rules and the candidates of a component in the texts of a catalog and a
    rule book. -/
def inputsOf (component catalogText ruleText : Text) : Except Fault (List Rule × List Text) := do
  let catalog ← Catalog.ofText catalogText
  let book ← RuleBook.ofText ruleText
  let rules := book.rulesOf component
  if rules.isEmpty then throw (.noRules component)
  match catalog.get? component with
  | none => throw (.unmatched [(component, rules)])
  | some versions => return (rules, versions)

/-- The versions that are selected by rules among candidates. -/
def selected (fallback : Bool) (inputs : List Rule × List Text) : Except Fault (List Text) :=
  (Selection.choose fallback inputs.1 inputs.2).mapError Fault.ofMatch

/-- The versions that are selected, if the rules can be explained. -/
def explained (fallback : Bool) (inputs : List Rule × List Text) : Except Fault (List Text) := do
  let _ ← (Explanation.decisions inputs.1 inputs.2).mapError Fault.ofMatch
  selected fallback inputs

/-- The status of a run that explains a component, by the versions. -/
def statusOfVersions (versions : List Text) : Nat := if versions.isEmpty then 2 else 0

section

variable {rules : Path} {t : Text} (h : HasText directory tree rules t)

include h

theorem reads_inputs (component candidates : Text) (fallback : Bool) :
    Reads directory tree (inputs ⟨component, some candidates, some rules, fallback⟩)
      (ifSaid candidates (inputsOf component candidates t.unifyBreaks)) := by
  rw [inputs, ifSaid]
  dsimp only
  split
  · exact (reads_throw _).stops
  · refine (reads_liftExcept _).bind fun catalog => (reads_readRules h).bind fun book => ?_
    dsimp only
    by_cases he : (book.rulesOf component).isEmpty = true
    · rw [if_pos he, if_pos he]
      exact (reads_throw _).stops
    · rw [if_neg he, if_neg he]
      cases catalog.get? component with
      | none => exact reads_throw _
      | some versions => exact reads_pure _

/-- A run that explains a component ends with the status of the versions that
    would be selected for it. -/
theorem ends_explain (component candidates : Text) (fallback : Bool) :
    Ends directory tree (explain ⟨component, some candidates, some rules, fallback⟩)
      (statusOf statusOfVersions (ifSaid candidates (inputsOf component candidates t.unifyBreaks) >>=
        explained fallback)) := by
  rw [statusOf_bind]
  refine .orAnswerFor (reads_inputs h component candidates fallback) fun inputs => ?_
  obtain ⟨rules, versions⟩ := inputs
  refine .behind (reads_appear _) ?_
  rw [explained, selected, statusOf_bind]
  refine .orAnswerFor (reads_liftExcept _) fun decisions => ?_
  refine .behind (reads_show _) (.behind (reads_takeAll _) ?_)
  cases Selection.choose fallback rules versions with
  | error m =>
    -- No rule fails here any more; if one did, the status would be the same.
    have hfail : Reads directory tree
        (liftExcept ((Except.error m : Except MatchFault (List Text)).mapError Fault.ofMatch))
        (.error (.ofMatch m)) := reads_liftExcept _
    show Ends directory tree _ ((Fault.ofMatch m).exitStatus?.getD 1)
    rw [status_ofMatch]
    exact .of_error hfail.stops
  | ok chosen =>
    have hdone : Reads directory tree
        (liftExcept ((Except.ok chosen : Except MatchFault (List Text)).mapError Fault.ofMatch))
        (.ok chosen) := reads_liftExcept _
    exact .behind hdone (.of_ok (reads_pure _))

end

end Command

end TestGrid
