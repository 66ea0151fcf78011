import TestGrid.Proofs.Command
import TestGrid.Proofs.Outcome
import TestGrid.Proofs.Settled

/-!
# Answering for faults

A run that generates a grid and fails is answered for if the fault has a
category: then the command line has told one error, which is marked and has the
message of the fault, and the run ends with the exit status of the category. A
fault without a category, such as a log file that is refused or a number that is
too long, is not answered for: the run ends with the fault itself, and no error
has been told (`Command.generate_ends`).

What carries this is that none of the steps of the run tells an error in the
name of the command line, however it ends (`Command.stays_store`), and that
telling the fault never fails, wherever the log file is.
-/

namespace TestGrid

open Fallible Files Workspace

/-! ## The notes of a plan -/

namespace Traced

variable {α β : Type}

/-- The computation leaves only plain notes behind. -/
def Plain (body : Traced α) : Prop :=
  ∀ t, (∀ n ∈ t.notes, n.Plain) → ∀ n ∈ (body t).2.notes, n.Plain

theorem plain_pure (a : α) : (pure a : Traced α).Plain := fun _ h => h

theorem plain_liftExcept (outcome : Except Fault α) : (liftExcept outcome : Traced α).Plain :=
  fun _ h => by cases outcome <;> exact h

theorem plain_note {notes : List Note} (h : ∀ n ∈ notes, n.Plain) : (note notes).Plain :=
  fun _ ht => List.forall_mem_append.2 ⟨ht, h⟩

theorem Plain.bind {body : Traced α} {next : α → Traced β} (hb : body.Plain)
    (hn : ∀ a, (next a).Plain) : (body >>= next).Plain := by
  intro t ht
  have hb := hb t ht
  show ∀ n ∈ (ExceptT.bindCont next (body t).1 (body t).2).2.notes, n.Plain
  cases (body t).1 with
  | error f => exact hb
  | ok a => exact hn a _ hb

theorem Plain.during {body : Traced α} (h : body.Plain) (stage : Stage) :
    (during stage body).Plain := fun t ht => h t ht

theorem Plain.timed {body : Traced α} (h : body.Plain) (activity : String) :
    (timed activity body).Plain := fun t ht =>
  List.forall_mem_append.2 ⟨h t ht, List.forall_mem_cons.2 ⟨trivial,
    List.forall_mem_singleton.2 trivial⟩⟩

end Traced

theorem RuleBook.plain_of_mem_notes {text : Text} : ∀ n ∈ notes text, n.Plain := by
  have hother : Speaker.ruleReader ≠ Speaker.commandLine := by decide
  refine List.forall_mem_cons.2 ⟨trivial, ?_⟩
  generalize statementLines text = lines
  induction lines with
  | nil => exact fun _ h => absurd h List.not_mem_nil
  | cons l lines ih =>
    rw [notesOn]
    split
    · exact List.forall_mem_cons.2 ⟨Note.plain_of_speaker hother, ih⟩
    · exact fun _ h => absurd h List.not_mem_nil
    · -- A line that is not read is an error, but the reader's.
      exact List.forall_mem_singleton.2 (Note.plain_of_speaker hother)

theorem Selection.plain_of_mem_notes {fallback : Bool} {book : RuleBook}
    {entries : List (Text × List Text)} : ∀ n ∈ notes fallback book entries, n.Plain := by
  have hother : Speaker.matcher ≠ Speaker.commandLine := by decide
  have hchoice (rules : List Rule) (candidates : List Text) :
      ∀ n ∈ choiceNotes fallback rules candidates, n.Plain := by
    rw [choiceNotes]
    split
    · dsimp only
      split
      · exact List.forall_mem_singleton.2 (Note.plain_of_speaker hother)
      · exact fun _ h => absurd h List.not_mem_nil
    · exact fun _ h => absurd h List.not_mem_nil
  induction entries with
  | nil => exact fun _ h => absurd h List.not_mem_nil
  | cons e entries ih =>
    rw [notes]
    split
    · exact List.forall_mem_cons.2 ⟨Note.plain_of_speaker hother, ih⟩
    · refine List.forall_mem_append.2 ⟨hchoice _ _, ?_⟩
      split
      · exact fun _ h => absurd h List.not_mem_nil
      · exact List.forall_mem_cons.2 ⟨Note.plain_of_speaker hother, ih⟩

/-- Making a plan notes no error in the name of the command line. -/
theorem Plan.plain_of_mem_notes (catalogText ruleText : Text) (fallback : Bool) :
    ∀ n ∈ (assemble catalogText ruleText fallback).result.2.notes, n.Plain := by
  have h : (assemble catalogText ruleText fallback).Plain := by
    refine Traced.Plain.timed (.bind ((Traced.plain_liftExcept _).during _) fun catalog => ?_) _
    refine .bind (.during (.bind (Traced.plain_note RuleBook.plain_of_mem_notes) fun _ =>
      Traced.plain_liftExcept _) _) fun rules => ?_
    refine .bind (Traced.plain_note (List.forall_mem_singleton.2 trivial)) fun _ => ?_
    refine .bind (.during (.bind (Traced.plain_note Selection.plain_of_mem_notes) fun _ =>
      Traced.plain_liftExcept _) _) fun selection => ?_
    refine .bind ((Traced.plain_liftExcept _).during _) fun grid => ?_
    exact .bind (Traced.plain_note (List.forall_mem_singleton.2 <|
      Note.plain_of_speaker (by decide))) fun _ => Traced.plain_pure _
  exact h {} fun _ hn => absurd hn List.not_mem_nil

/-! ## Steps that tell no fatals -/

namespace Workspace

variable {α β : Type} {w : Workspace}

/-- However the step ends, it has told no fatals, and the workspace is settled. -/
def Stays (w : Workspace) (step : Work α) : Prop := w.Follows [] (step.perform w).2

theorem Goes.stays {step : Work α} {outcome : Except Fault α} (h : w.Goes step outcome []) :
    w.Stays step := h.2

theorem Stays.bind {step : Work α} {next : α → Work β} (hs : w.Stays step)
    (hn : ∀ a w', w.Follows [] w' → w'.Stays (next a)) : w.Stays (step >>= next) := by
  rcases exists_ok_or_error (step.perform w).1 with ⟨a, ha⟩ | ⟨f, hf⟩
  · rw [Stays, Work.perform_bind_ok (Prod.ext ha rfl)]
    exact hs.trans (hn a _ hs)
  · rw [Stays, Work.perform_bind_error (Prod.ext hf rfl)]
    exact hs

theorem stays_get {next : Workspace → Work β} (h : w.Stays (next w)) : w.Stays (get >>= next) := h

theorem goes_show (h : w.Settled) (ds : List Drawing) : w.Goes (Work.show ds) (.ok ()) [] :=
  ⟨rfl, rfl, rfl, .refl _, (List.append_nil _).symm, h.sound, h.file⟩

theorem goes_showError (h : w.Settled) (ds : List Drawing) :
    w.Goes (Work.showError ds) (.ok ()) [] :=
  ⟨rfl, rfl, rfl, .refl _, (List.append_nil _).symm, h.sound, h.file⟩

/-- The tree may become another one that keeps what it has. -/
theorem stays_setTree (h : w.Settled) {t : Tree} (hk : w.tree.Keeps t) :
    w.Stays (modify fun w => { w with tree := t }) :=
  ⟨rfl, rfl, hk, (List.append_nil _).symm, h.sound.keeps hk, fun p hp => (h.file p hp).keeps hk⟩

end Workspace

namespace Storage

variable {w : Workspace}

theorem stays_readBytes (h : w.Settled) (path : Path) : w.Stays (readBytes path) := by
  rw [readBytes]
  refine (goes_get (goes_pure h _)).stays.bind fun p w hw => ?_
  have hthrow (f : Fault) : w.Stays (throw f : Work ByteArray) := (goes_throw hw.settled f).stays
  split
  · exact hthrow _
  · refine stays_get ?_
    split
    · exact (goes_pure hw.settled _).stays
    · exact hthrow _
    · exact hthrow _

theorem stays_readRuleText (h : w.Settled) (path : Path) : w.Stays (readRuleText path) := by
  refine (Journal.goes_appear h _).stays.bind fun _ w hw => ?_
  refine (stays_readBytes hw.settled path).bind fun bytes w hw => ?_
  split
  · exact (goes_pure hw.settled _).stays
  · exact (goes_throw hw.settled _).stays

theorem stays_makeParent (h : w.Settled) (path : Path) : w.Stays (makeParent path) := by
  rw [makeParent]
  refine (goes_get (goes_pure h _)).stays.bind fun p w hw => ?_
  dsimp only
  split
  · exact (goes_throw hw.settled _).stays
  · refine stays_get ?_
    refine (stays_setTree hw.settled (w.tree.keeps_makeDirectories _)).bind fun _ w hw => ?_
    split
    · exact (goes_pure hw.settled _).stays
    · exact (goes_throw hw.settled _).stays

theorem stays_writeText (h : w.Settled) (path : Path) (t : Text) : w.Stays (writeText path t) := by
  rw [writeText]
  refine (goes_get (goes_pure h _)).stays.bind fun p w hw => ?_
  split
  · exact (goes_throw hw.settled _).stays
  · refine stays_get ?_
    split
    · next ht => exact stays_setTree hw.settled (Tree.keeps_write ht)
    · have hother : Speaker.writer ≠ Speaker.commandLine := by decide
      refine (Journal.goes_tell hw.settled (fun _ => hother) _).stays.bind fun _ w hw => ?_
      exact (goes_throw hw.settled _).stays

theorem stays_save (h : w.Settled) (grid : Grid) (default path : Option Path) :
    w.Stays (save grid default path) := by
  refine (Journal.goes_appear h _).stays.bind fun _ w hw => ?_
  split
  · exact (goes_throw hw.settled _).stays
  · refine (stays_makeParent hw.settled _).bind fun _ w hw => ?_
    refine (stays_writeText hw.settled _ _).bind fun _ w hw => ?_
    refine (Journal.goes_tell hw.settled (by rintro ⟨⟩) _).stays.bind fun _ w hw => ?_
    exact (goes_pure hw.settled _).stays

end Storage

/-- The settings are checked by looking at a file only. -/
theorem Settings.stays_check {w : Workspace} (h : w.Settled) (s : Settings) : w.Stays s.check := by
  have hthrow {α : Type} {w : Workspace} (h : w.Settled) (f : Fault) :
      w.Stays (throw f : Work α) := (goes_throw h f).stays
  have hwrong {w : Workspace} (h : w.Settled) (f : Fault)
      (next : PUnit → Work (Text × Path × Path)) : w.Stays (throw f >>= next) :=
    (goes_throw h f).stops.stays
  rw [check]
  -- The cases are split in the order in which the settings are looked at.
  cases s.candidates with
  | none => exact hthrow h _
  | some candidates =>
    dsimp only
    by_cases hc : saysNothing (some candidates) = true
    · rw [if_pos hc]
      exact hwrong h _ _
    · rw [if_neg hc]
      cases s.rules with
      | none => exact hthrow h _
      | some rules =>
        dsimp only
        by_cases hr : saysNothing (some rules.toText) = true
        · rw [if_pos hr]
          exact hwrong h _ _
        · rw [if_neg hr]
          have hlook : w.Stays (Storage.checkFile rules) :=
            (Storage.stays_readBytes h rules).bind fun _ w hw => (goes_pure hw.settled _).stays
          refine hlook.bind fun _ w hw => ?_
          cases s.output with
          | none => exact hthrow hw.settled _
          | some output =>
            dsimp only
            split
            · exact hwrong hw.settled _ _
            · exact (goes_pure hw.settled _).stays

/-! ## Runs that generate a grid -/

namespace Command

variable {w : Workspace}

theorem goes_tellSetting (h : w.Settled) (s : Setting) (value : Text) :
    w.Goes (tellSetting s value) (.ok ()) [] := Journal.goes_tell h (by rintro ⟨⟩) _

theorem stays_takeIn (h : w.Settled) (s : Settings) : w.Stays (takeIn s) := by
  refine (Settings.stays_check h s).bind fun said w hw => ?_
  refine (goes_tellSetting hw.settled _ _).stays.bind fun _ w hw => ?_
  refine (goes_tellSetting hw.settled _ _).stays.bind fun _ w hw => ?_
  refine (goes_tellSetting hw.settled _ _).stays.bind fun _ w hw => ?_
  refine (Storage.stays_readRuleText hw.settled _).bind fun text w hw => ?_
  exact (goes_pure hw.settled _).stays

/-- A plan is made with the outcome of its texts, wherever its notes go. -/
theorem goes_assemble (h : w.Settled) (catalogText ruleText : Text) (fallback : Bool) :
    w.Goes (assemble catalogText ruleText fallback)
      ((Plan.ofTexts catalogText ruleText fallback).map fun plan =>
        (plan, (Plan.assemble catalogText ruleText fallback).result.2.stages)) [] := by
  have hplain := Plan.plain_of_mem_notes catalogText ruleText fallback
  rw [assemble, ← Plan.assemble_result]
  generalize (Plan.assemble catalogText ruleText fallback).result = made at hplain
  obtain ⟨outcome, trace⟩ := made
  -- The notes are taken to the journal first, whether there is a plan or not.
  refine (Journal.goes_takeAll h hplain).andThen fun w hw => ?_
  cases outcome with
  | error f => exact (goes_liftExcept hw.settled (.error f)).stops
  | ok plan =>
    exact (goes_liftExcept hw.settled (.ok plan)).andThen fun w hw => goes_pure hw.settled _

/-- Storing a grid tells no fatals, however it ends. -/
theorem stays_store (h : w.Settled) (s : Settings) : w.Stays (store s) := by
  rw [store_eq]
  refine (stays_takeIn h s).bind fun taken w hw => ?_
  refine (goes_assemble hw.settled _ _ _).stays.bind fun made w hw => ?_
  refine (Storage.stays_save hw.settled _ _ _).bind fun _ w hw => ?_
  exact (goes_pure hw.settled _).stays

/-- If what is taken in has no plan, this is why nothing is stored. -/
theorem store_eq_error (h : w.Settled) {s : Settings} {candidates ruleText : Text} {output : Path}
    (ht : ((takeIn s).perform w).1 = .ok (candidates, output, ruleText)) {f : Fault}
    (hf : Plan.ofTexts candidates ruleText s.fallback = .error f) :
    ((store s).perform w).1 = .error f := by
  have hgoes : w.Goes (takeIn s) (.ok (candidates, output, ruleText)) [] := ⟨ht, stays_takeIn h s⟩
  rw [store_eq]
  have hmake (w' : Workspace) (hw' : w'.Settled) :
      w'.Goes (makeAndSave s.fallback (candidates, output, ruleText)) (.error f) [] := by
    have hgoes := goes_assemble hw' candidates ruleText s.fallback
    rw [hf] at hgoes
    exact hgoes.stops
  exact (hgoes.andThen fun w' hw' => hmake w' hw'.settled).1

/-! ## The end of a run -/

/-- The record of the error that ends a run with a fault. -/
def fatalRecord (f : Fault) : Record :=
  ⟨.error, Speaker.commandLine, s!"{Journal.fatalMark} {f.message}"⟩

/-- The run has ended by a fault: if the fault has a category, with its exit
    status and one error that is told for the fault; else with the fault itself,
    and no error is told. -/
def EndsBy (f : Fault) (ended : Except Fault Nat × Workspace) : Prop :=
  match f.category? with
  | some k => ended.1 = .ok k.exitStatus ∧ ended.2.fatals = [fatalRecord f]
  | none => ended.1 = .error f ∧ ended.2.fatals = []

/-- A fault is answered for if it has a category. -/
theorem endsBy_answerFor (h : w.Settled) (hn : w.fatals = []) (f : Fault) :
    EndsBy f ((answerFor f).perform w) := by
  rw [EndsBy, answerFor, Fault.exitStatus?]
  cases f.category? with
  | none => exact ⟨rfl, hn⟩
  | some k =>
    have ht := Journal.goes_tellFatal h f.message
    have htold : w.Goes (do
        Journal.tellFatal Speaker.commandLine f.message
        Work.showError [Report.error f.message.toList none]
        return k.exitStatus : Work Nat) (.ok k.exitStatus) ([fatalRecord f] ++ []) :=
      ht.bind ((goes_showError ht.2.settled _).andThen fun _ hw => goes_pure hw.settled _)
    exact ⟨htold.1, htold.2.fatals.trans (by rw [hn]; rfl)⟩

/-- What a run shows when the grid is stored. -/
def showStored (performance : Bool) (made : Plan × Path × List Stage) : Work Nat := do
  Work.show (Report.summary made.1.selection.entries made.1.grid.length (some made.2.1))
  if performance then Work.show (meterOf (← get).gauge made.2.2).summary
  return 0

theorem goes_showStored (h : w.Settled) (performance : Bool) (made : Plan × Path × List Stage) :
    w.Goes (showStored performance made) (.ok 0) [] := by
  refine (goes_show h _).andThen fun w hw => ?_
  cases performance with
  | false => exact goes_pure hw.settled 0
  | true => exact goes_get ((goes_show hw.settled _).andThen fun _ hw => goes_pure hw.settled 0)

/-- What a run attempts: to set up the journal and to store a grid. -/
def attempt (o : GenerateOptions) : Work (Plan × Path × List Stage) := do
  Journal.setUp .info o.logFile o.verbose
  store o.settings

/-- What a run takes in, behind the set-up of the journal. -/
def intake (o : GenerateOptions) : Work (Text × Path × Text) := do
  Journal.setUp .info o.logFile o.verbose
  takeIn o.settings

/-- In a settled workspace in which no fatals have been told, a run ends as storing
    the grid does. -/
theorem endsBy_store (h : w.Settled) (hn : w.fatals = []) (s : Settings) (performance : Bool) :
    let ended := (orAnswerFor (store s) (showStored performance)).perform w
    (∀ made, ((store s).perform w).1 = .ok made → ended.1 = .ok 0 ∧ ended.2.fatals = []) ∧
    (∀ f, ((store s).perform w).1 = .error f → EndsBy f ended) ∧
    ∀ candidates output ruleText f,
      ((takeIn s).perform w).1 = .ok (candidates, output, ruleText) →
      Plan.ofTexts candidates ruleText s.fallback = .error f → EndsBy f ended := by
  intro ended
  have hstore := stays_store h s
  have hquiet : ((store s).perform w).2.fatals = [] := hstore.fatals.trans (by rw [hn]; rfl)
  have hfailed : ∀ f, ((store s).perform w).1 = .error f → EndsBy f ended := by
    intro f hf
    rw [show ended = _ from perform_orAnswerFor_error _ hf]
    exact endsBy_answerFor hstore.settled hquiet f
  refine ⟨fun made hmade => ?_, hfailed, fun candidates output ruleText f htaken hf =>
    hfailed f (store_eq_error h htaken hf)⟩
  rw [show ended = _ from perform_orAnswerFor_ok _ hmade]
  have hgoes := goes_showStored hstore.settled performance made
  exact ⟨hgoes.1, hgoes.2.fatals.trans (by rw [hquiet]; rfl)⟩

/-- The run of a new program ends with the status 0 if its attempt succeeds, and
    else by the fault of the attempt; if what the run has taken in has no plan,
    this fault is the plan's. -/
theorem endsBy_attempt (o : GenerateOptions) (directory : Path) (tree : Tree) (gauge : Gauge) :
    let w : Workspace := { directory, tree, gauge }
    let ended := (generate o).perform w
    (∀ made, ((attempt o).perform w).1 = .ok made → ended.1 = .ok 0 ∧ ended.2.fatals = []) ∧
    (∀ f, ((attempt o).perform w).1 = .error f → EndsBy f ended) ∧
    ∀ candidates output ruleText f,
      ((intake o).perform w).1 = .ok (candidates, output, ruleText) →
      Plan.ofTexts candidates ruleText o.settings.fallback = .error f → EndsBy f ended := by
  intro w ended
  rcases Journal.setUp_cases (w := w) rfl o.logFile o.verbose with ⟨f, hf, hc, ht⟩ | ⟨ho, hs, ht⟩
  · -- The log file is refused, so that nothing else is done.
    have hattempt : (attempt o).perform w = (.error f, _) :=
      Work.perform_bind_error (Prod.ext hf rfl) _
    have hintake : (intake o).perform w = (.error f, _) :=
      Work.perform_bind_error (Prod.ext hf rfl) _
    have hended : ended = (.error f, _) := Work.perform_bind_error (Prod.ext hf rfl) _
    rw [hattempt, hintake, hended]
    have hends : EndsBy f (.error f, ((Journal.setUp .info o.logFile o.verbose).perform w).2) := by
      rw [EndsBy, hc]
      exact ⟨rfl, ht⟩
    refine ⟨fun _ h => (nomatch h), ?_, fun _ _ _ _ h => (nomatch h)⟩
    rintro _ ⟨⟩
    exact hends
  · have hattempt : (attempt o).perform w = (store o.settings).perform _ :=
      Work.perform_bind_ok (Prod.ext ho rfl) _
    have hintake : (intake o).perform w = (takeIn o.settings).perform _ :=
      Work.perform_bind_ok (Prod.ext ho rfl) _
    have hended : ended =
        (orAnswerFor (store o.settings) (showStored o.performance)).perform _ :=
      Work.perform_bind_ok (Prod.ext ho rfl) _
    rw [hattempt, hintake, hended]
    exact endsBy_store hs ht o.settings o.performance

/-- Making a plan fails with a fault of a category, unless a number that is too
    long is met; then so many digits stand next to each other in one of the texts.
    A run that fails is answered for by one error of the command line and by the
    exit status, if its fault has a category, and is not answered for otherwise;
    its fault is that of the plan if what it has taken in has none. -/
theorem answered_unless_long_number (catalogText ruleText : Text) (fallback : Bool)
    (o : GenerateOptions) (directory : Path) (tree : Tree) (gauge : Gauge) :
    let outcome := (Plan.assemble catalogText ruleText fallback).result.1
    let w : Workspace := { directory, tree, gauge }
    let ended := (generate o).perform w
    ((∀ f, outcome = .error f → (∃ k, f.category? = some k) ∨
        ∃ n, f = .version (.tooLong n) ∧ Version.digitLimit < n ∧
          (catalogText.HasRun n ∨ ruleText.HasRun n)) ∧
      ((∃ f, outcome = .error f ∧ f.category? = none) ↔
        Plan.MeetsLongNumber catalogText ruleText)) ∧
    (∀ made, ((attempt o).perform w).1 = .ok made → ended.1 = .ok 0 ∧ ended.2.fatals = []) ∧
    (∀ f, ((attempt o).perform w).1 = .error f → EndsBy f ended) ∧
    ∀ candidates output ruleText f,
      ((intake o).perform w).1 = .ok (candidates, output, ruleText) →
      (Plan.assemble candidates ruleText o.settings.fallback).result.1 = .error f →
      EndsBy f ended := by
  intro outcome w ended
  obtain ⟨hok, hfailed, htaken⟩ := endsBy_attempt o directory tree gauge
  have houtcome : outcome = Plan.ofTexts catalogText ruleText fallback := Plan.assemble_result ..
  rw [houtcome]
  refine ⟨⟨fun f hf => Plan.category_of_ofTexts hf, Plan.exists_uncategorized_iff⟩, hok, hfailed,
    fun candidates output ruleText f ht hf => htaken candidates output ruleText f ht ?_⟩
  rw [← Plan.assemble_result]
  exact hf

/-- The fault of a candidate with too many digits in front of its first dot is of
    no category. -/
theorem long_candidate_not_answered :
    (Plan.assemble ('a' :: ':' :: List.replicate 4301 '1') "a=>=1.0".toList true).result.1 =
        .error (.version (.tooLong 4301)) ∧
      (Fault.version (.tooLong 4301)).category? = none := by
  have hlength : (List.replicate 4301 '1').length = 4301 := List.length_replicate
  have hlong : Version.digitLimit < (List.replicate 4301 '1').length := by
    rw [hlength]
    decide
  rw [Plan.assemble_result, Plan.ofTexts_of_long (fun c hc => ?_) hlong, hlength]
  · exact ⟨rfl, rfl⟩
  · rw [List.eq_of_mem_replicate hc]
    rfl

end Command

end TestGrid
