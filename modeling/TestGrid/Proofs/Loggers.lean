import Mathlib.Data.List.TakeWhile
import TestGrid.Proofs.Calls

/-!
# Loggers after calls

What calls have made of a journal depends on all of them, and it is told by their list:

* the loggers are known by the names that were asked for, and all of them have the level of
  the last set-up;
* a logger has been *told of* the log file that was in force when it was first asked for,
  and of those of all later set-ups (`Journal.toldOf`). Its handlers are the screen and
  these log files, each of them once (`ServesOnce`).

Each call keeps this up (`Journal.Comes.after`), so it holds after every list of calls
(`Journal.comes_foldl`). A fresh journal is one after calls too (`Journal.foldl_opening`).

From the levels follows which records are kept: those from the level of the last set-up on.
If this level is unset the root decides, which keeps records from `warning` on until it is
asked for too (`Journal.Comes.threshold`).
-/

namespace TestGrid

open Files

namespace Journal

variable {calls : List Call} {key : Text} {file : Path}

/-! ## Lists of calls -/

/-- The journal with the root alone. -/
def bare : Journal where
  level := .info
  file := none
  loggers := .ofList [(Logger.root, { level := .warning })]
  names := []

/-- The calls that are made at the start of every program. -/
def opening : List Call := [.get Speaker.pipeline, .get Speaker.commandLine]

theorem foldl_opening (directory : Path) : opening.foldl (after directory) bare = fresh := rfl

/-- The tuning of the last set-up. -/
def inForce (calls : List Call) : Tuning := (calls.filterMap Call.tuning?).getLastD bare.tuning

theorem inForce_concat (calls : List Call) (call : Call) :
    inForce (calls ++ [call]) = call.tuning?.getD (inForce calls) := by
  rw [inForce, List.filterMap_append]
  cases call with
  | setUp level file verbose => exact List.getLastD_concat
  | get name => exact congrArg (List.getLastD · _) (List.append_nil _)

/-- The log file in force was named by a call. -/
theorem mem_filterMap_of_inForce (h : (inForce calls).file = some file) :
    file ∈ calls.filterMap Call.file? := by
  induction calls using List.reverseRecOn with
  | nil => cases h
  | append_singleton calls call ih =>
    rw [inForce_concat] at h
    rw [List.filterMap_append, List.mem_append]
    cases call with
    | setUp level file' verbose => exact .inr (List.mem_filterMap.2 ⟨_, List.mem_cons_self, h⟩)
    | get name => exact .inl (ih h)

/-- The call asks for the logger with the name of its own. -/
def Call.asksFor (key : Text) : Call → Bool
  | setUp .. => false
  | get name => Logger.nameFor name = key

/-- Some call asks for the logger. -/
def Asked (calls : List Call) (key : Text) : Prop := ∃ call ∈ calls, call.asksFor key

instance : Decidable (Asked calls key) :=
  inferInstanceAs (Decidable (∃ call ∈ calls, call.asksFor key = true))

theorem asked_concat {call : Call} :
    Asked (calls ++ [call]) key ↔ Asked calls key ∨ call.asksFor key := by
  simp only [Asked, List.mem_append, List.mem_singleton, or_and_right, exists_or, exists_eq_left]

theorem asked_iff_exists_get :
    Asked calls key ↔ ∃ name, .get name ∈ calls ∧ Logger.nameFor name = key := by
  constructor
  · rintro ⟨call, hm, ha⟩
    cases call with
    | setUp => cases ha
    | get name => exact ⟨name, hm, of_decide_eq_true ha⟩
  · rintro ⟨name, hm, hn⟩
    exact ⟨_, hm, decide_eq_true hn⟩

/-- The log files that a logger is told of: the one in force when it is first asked for, and
    those of the calls from then on. -/
def toldOf (key : Text) (calls : List Call) : List Path :=
  (inForce (calls.takeWhile (!·.asksFor key))).file.toList ++
    (calls.dropWhile (!·.asksFor key)).filterMap Call.file?

/-- A logger that was asked for is told of the log file of each further call. -/
theorem toldOf_concat (h : Asked calls key) (call : Call) :
    toldOf key (calls ++ [call]) = toldOf key calls ++ call.file?.toList := by
  -- The logger is first asked for by one of the calls, so the further call is behind it.
  obtain ⟨call', hm, ha⟩ := h
  have hnot : ¬∀ call ∈ calls, (!call.asksFor key) = true := fun hall => by
    simpa [ha] using hall call' hm
  have htake : (calls.takeWhile (!·.asksFor key)).length ≠ calls.length := fun hlength =>
    hnot (List.takeWhile_eq_self_iff.1 ((List.takeWhile_prefix _).eq_of_length hlength))
  have hdrop : ¬(calls.dropWhile (!·.asksFor key)).isEmpty := fun hempty =>
    hnot (List.dropWhile_eq_nil_iff.1 (List.isEmpty_iff.1 hempty))
  have hfile : [call].filterMap Call.file? = call.file?.toList := by
    cases hf : call.file? <;> simp [hf]
  rw [toldOf, List.takeWhile_append, if_neg htake, List.dropWhile_append, if_neg hdrop,
    List.filterMap_append, hfile, ← List.append_assoc, toldOf]

/-- A logger is told of the log file in force when it is first asked for. -/
theorem toldOf_concat_get {name : Text} (h : ¬Asked calls key) (hn : Logger.nameFor name = key) :
    toldOf key (calls ++ [.get name]) = (inForce calls).file.toList := by
  have hall : ∀ call ∈ calls, (!call.asksFor key) = true := fun call hm => by
    rw [Bool.not_eq_true', ← Bool.not_eq_true]
    exact fun ha => h ⟨call, hm, ha⟩
  have hasks : (Call.get name).asksFor key = true := decide_eq_true hn
  rw [toldOf, List.takeWhile_append_of_pos hall, List.dropWhile_append_of_pos hall]
  simp [hasks, Call.file?]

/-- A logger that was asked for has been told of the log file in force. -/
theorem mem_toldOf_of_inForce (h : Asked calls key) (hf : (inForce calls).file = some file) :
    file ∈ toldOf key calls := by
  induction calls using List.reverseRecOn with
  | nil => cases hf
  | append_singleton calls call ih =>
    rw [inForce_concat] at hf
    by_cases ha : Asked calls key
    · rw [toldOf_concat ha, List.mem_append]
      cases call with
      | setUp level file' verbose => exact .inr (Option.mem_toList.2 hf)
      | get name => exact .inl (ih ha hf)
    · cases call with
      | setUp level file' verbose => exact absurd (asked_concat.1 h) (by simp [ha, Call.asksFor])
      | get name =>
        have hn : Logger.nameFor name = key :=
          of_decide_eq_true ((asked_concat.1 h).resolve_left ha)
        rw [toldOf_concat_get ha hn]
        exact Option.mem_toList.2 hf

/-- A logger is told only of log files that were named. -/
theorem mem_filterMap_of_mem_toldOf (h : file ∈ toldOf key calls) :
    file ∈ calls.filterMap Call.file? := by
  rw [← List.takeWhile_append_dropWhile (p := (!Call.asksFor key ·)) (l := calls),
    List.filterMap_append]
  rcases List.mem_append.1 h with h | h
  · exact List.mem_append_left _ (mem_filterMap_of_inForce (Option.mem_toList.1 h))
  · exact List.mem_append_right _ h

/-! ## What serves a logger -/

/-- The handlers are the screen and some log files, each of them once. -/
structure ServesOnce (directory : Path) (files : List Path) (handlers : List Handler) : Prop where
  nodup : handlers.Nodup
  screen : .screen ∈ handlers
  mem_iff : ∀ p, .file p ∈ handlers ↔ ∃ file ∈ files, p = file.absolute directory

section

variable {directory : Path} {files files' : List Path} {handlers : List Handler}

/-- A log file is attached, once. -/
theorem ServesOnce.attach (h : ServesOnce directory files handlers) (t : Tuning) :
    ServesOnce directory (files ++ t.file.toList) (t.attach directory handlers) where
  nodup := t.nodup_attach directory h.nodup
  screen := (t.mem_attach directory).2 (.inl h.screen)
  mem_iff p := by
    rw [t.mem_attach, h.mem_iff]
    simp only [List.mem_append, Option.mem_toList, or_and_right, exists_or, Handler.file.injEq]

/-- Which log files there are does not depend on their order. -/
theorem ServesOnce.of_mem_iff (h : ServesOnce directory files handlers)
    (hf : ∀ file, file ∈ files ↔ file ∈ files') : ServesOnce directory files' handlers where
  nodup := h.nodup
  screen := h.screen
  mem_iff p := by simp only [h.mem_iff, hf]

/-- A logger without the screen is put on it. -/
theorem servesOnce_onScreen {l : Logger} (hn : l.handlers.Nodup)
    (hm : ∀ p, .file p ∈ l.handlers ↔ ∃ file ∈ files, p = file.absolute directory) :
    ServesOnce directory files l.onScreen.handlers where
  nodup := by
    let others := l.handlers.filter (· ≠ .screen)
    have hscreen : Handler.screen ∉ others := by simp [others]
    show (others ++ [Handler.screen]).Nodup
    rw [← List.concat_eq_append]
    exact (hn.filter _).concat hscreen
  screen := List.mem_append_right _ (List.mem_singleton.2 rfl)
  mem_iff p := by
    rw [← hm]
    simp [Logger.onScreen]

end

/-! ## The journal after calls -/

/-- What calls have made of a bare journal. -/
structure Comes (directory : Path) (calls : List Call) (j : Journal) : Prop where
  tuning : j.tuning = inForce calls
  names : ∀ name, name ∈ j.names ↔ .get name ∈ calls
  known : ∀ key, Asked calls key → ∃ l, j.loggers.get? key = some l ∧
    l.level = (inForce calls).level ∧ ServesOnce directory (toldOf key calls) l.handlers
  others : ∀ key, ¬Asked calls key → j.loggers.get? key = bare.loggers.get? key

theorem get?_bare (key : Text) :
    bare.loggers.get? key = if key = Logger.root then some { level := .warning } else none := by
  show (Roster.insert .empty Logger.root _).get? key = _
  rw [Roster.get?_insert]
  rfl

theorem comes_bare (directory : Path) : Comes directory [] bare where
  tuning := rfl
  names _ := iff_of_false List.not_mem_nil List.not_mem_nil
  known _ h := by
    obtain ⟨_, hm, _⟩ := h
    cases hm
  others _ _ := rfl

namespace Comes

variable {directory : Path} {j : Journal} (h : Comes directory calls j)

include h

theorem mem_map_names : key ∈ j.names.map Logger.nameFor ↔ Asked calls key := by
  rw [List.mem_map, asked_iff_exists_get]
  exact exists_congr fun name => and_congr_left fun _ => h.names name

/-- A set-up tells the known loggers its level and its log file. -/
theorem after_setUp (level : Level) (file : Option Path) (verbose : Bool) :
    Comes directory (calls ++ [.setUp level file verbose])
      (j.after directory (.setUp level file verbose)) where
  tuning := by rw [tuning_after, inForce_concat, h.tuning]
  names name := by
    obtain ⟨_, he⟩ := exists_tuned_eq directory
      { j with level := if verbose then .debug else level, file } j.names
    rw [after, he]
    simp [h.names]
  known key ha := by
    let t : Tuning := ⟨if verbose then .debug else level, file⟩
    have hasked : Asked calls key := (asked_concat.1 ha).resolve_right Bool.false_ne_true
    obtain ⟨l, hl, -, hs⟩ := h.known key hasked
    rw [after, get?_tuned, if_pos (h.mem_map_names.2 hasked), hl, inForce_concat,
      toldOf_concat hasked]
    exact ⟨t.apply directory l, rfl, rfl, hs.attach t⟩
  others key ha := by
    have hasked : ¬Asked calls key := fun hasked => ha (asked_concat.2 (.inl hasked))
    rw [after, get?_tuned, if_neg (mt h.mem_map_names.1 hasked)]
    exact h.others key hasked

/-- A logger that is asked for by a new name is put on the screen and told of the log file in
    force, whether it is known by another name or not. -/
theorem servesOnce_new (name : Text) :
    ServesOnce directory (toldOf (Logger.nameFor name) (calls ++ [.get name]))
      (j.tuning.apply directory ((j.logger? name).getD {}).onScreen).handlers := by
  rw [h.tuning]
  by_cases ha : Asked calls (Logger.nameFor name)
  · obtain ⟨l, hl, -, hs⟩ := h.known _ ha
    rw [show j.logger? name = some l from hl, toldOf_concat ha]
    refine ((servesOnce_onScreen hs.nodup hs.mem_iff).attach _).of_mem_iff fun file => ?_
    -- The logger has been told of the log file in force already.
    simp only [Call.file?, Option.toList_none, List.append_nil, List.mem_append, Option.mem_toList]
    exact or_iff_left_of_imp (mem_toldOf_of_inForce ha)
  · have hnone : ((j.logger? name).getD {}).handlers = [] := by
      rw [logger?, h.others _ ha, get?_bare]
      split <;> rfl
    have hs : ServesOnce directory [] ((j.logger? name).getD {}).onScreen.handlers :=
      servesOnce_onScreen (by simp [hnone]) fun p => by simp [hnone]
    rw [toldOf_concat_get ha rfl]
    exact hs.attach (inForce calls)

/-- A logger that is asked for is known from then on. -/
theorem after_get (name : Text) :
    Comes directory (calls ++ [.get name]) (j.after directory (.get name)) := by
  have hforce : inForce (calls ++ [.get name]) = inForce calls := inForce_concat ..
  have hbefore {key : Text} (ha : Asked calls key) :
      toldOf key (calls ++ [.get name]) = toldOf key calls :=
    (toldOf_concat ha _).trans (List.append_nil _)
  by_cases hn : j.names.contains name
  · -- The name is known, and nothing changes.
    have hm : .get name ∈ calls := (h.names name).1 (List.contains_iff_mem.1 hn)
    have hasked (key : Text) : Asked (calls ++ [.get name]) key ↔ Asked calls key :=
      asked_concat.trans (or_iff_left_of_imp fun ha => ⟨_, hm, ha⟩)
    rw [after, if_pos hn]
    refine ⟨hforce ▸ h.tuning, fun name' => ?_, fun key ha => ?_, fun key ha => ?_⟩
    · rw [h.names, List.mem_append, List.mem_singleton]
      exact (or_iff_left_of_imp fun he => he ▸ hm).symm
    · have ha := (hasked key).1 ha
      rw [hforce, hbefore ha]
      exact h.known key ha
    · exact h.others key (mt (hasked key).2 ha)
  · let l := j.tuning.apply directory ((j.logger? name).getD {}).onScreen
    have hget (key : Text) : (j.entered name l).loggers.get? key =
        if key = Logger.nameFor name then some l else j.loggers.get? key := Roster.get?_insert ..
    rw [after, if_neg hn]
    refine ⟨hforce ▸ h.tuning, fun name' => ?_, fun key ha => ?_, fun key ha => ?_⟩
    · simp [h.names]
    · dsimp only
      rw [hget]
      by_cases hk : key = Logger.nameFor name
      · subst hk
        rw [if_pos rfl, hforce, ← h.tuning]
        exact ⟨l, rfl, rfl, h.servesOnce_new name⟩
      · have ha : Asked calls key :=
          (asked_concat.1 ha).resolve_right fun ha => hk (of_decide_eq_true ha).symm
        rw [if_neg hk, hforce, hbefore ha]
        exact h.known key ha
    · rw [asked_concat, not_or] at ha
      dsimp only
      rw [hget, if_neg fun hk => ha.2 (decide_eq_true hk.symm)]
      exact h.others key ha.1

protected theorem after (call : Call) :
    Comes directory (calls ++ [call]) (j.after directory call) := by
  cases call with
  | setUp level file verbose => exact h.after_setUp level file verbose
  | get name => exact h.after_get name

end Comes

theorem comes_foldl (directory : Path) (calls : List Call) :
    Comes directory calls (calls.foldl (after directory) bare) := by
  -- By induction from the end, for what a logger is told of grows there.
  induction calls using List.reverseRecOn with
  | nil => exact comes_bare directory
  | append_singleton calls call ih =>
    rw [List.foldl_append]
    exact ih.after call

/-! ## Which records are kept -/

theorem nameFor_nameFor (name : Text) :
    Logger.nameFor (Logger.nameFor name) = Logger.nameFor name := by
  rw [Logger.nameFor]
  refine if_neg ?_
  rw [Logger.nameFor]
  split
  · exact Bool.false_ne_true
  · next hn => exact hn

theorem levelOf_eq (j : Journal) {name : Text} (hk : Logger.nameFor name = key) :
    j.levelOf name = ((j.loggers.get? key).map Logger.level).getD .unset := by
  rw [levelOf, logger?, hk]

/-- If no logger but the root has a level, the root decides for all of them. -/
theorem threshold_of_unset {j : Journal} (h : ∀ name, Logger.nameFor name ≠ Logger.root →
    j.levelOf name = .unset) (name : Text) : j.threshold name = j.levelOf Logger.root := by
  fun_induction j.threshold name with
  | case1 name hl =>
    have hroot : Logger.nameFor name = Logger.root := by_contra fun hn => hl (h name hn)
    rw [levelOf_eq j hroot]
    rfl
  | case2 name hl upper hu ih => exact ih
  | case3 => rfl

/-- The level from which on records are kept: that of the last set-up. If it is unset the root
    decides, which has the level `warning` until it is asked for. -/
def floor (calls : List Call) : Level :=
  if (inForce calls).level = .unset ∧ ¬Asked calls Logger.root then .warning
  else (inForce calls).level

namespace Comes

variable {directory : Path} {j : Journal} (h : Comes directory calls j)

include h

theorem levelOf_of_asked {name : Text} (hk : Logger.nameFor name = key) (ha : Asked calls key) :
    j.levelOf name = (inForce calls).level := by
  obtain ⟨l, hl, hlevel, -⟩ := h.known key ha
  rw [levelOf_eq j hk, hl, ← hlevel]
  rfl

theorem levelOf_of_not {name : Text} (hk : Logger.nameFor name = key) (ha : ¬Asked calls key) :
    j.levelOf name = if key = Logger.root then .warning else .unset := by
  rw [levelOf_eq j hk, h.others key ha, get?_bare]
  split <;> rfl

/-- All loggers that were asked for keep records from the same level on. -/
theorem threshold_eq {name : Text} (ha : Asked calls (Logger.nameFor name)) :
    j.threshold (Logger.nameFor name) = floor calls := by
  have hl : j.levelOf (Logger.nameFor name) = (inForce calls).level :=
    h.levelOf_of_asked (nameFor_nameFor name) ha
  by_cases hu : (inForce calls).level = .unset
  · -- What was asked for has no level of its own, and what was not is the root or is not there.
    have hothers : ∀ name', Logger.nameFor name' ≠ Logger.root → j.levelOf name' = .unset := by
      intro name' hn
      by_cases ha : Asked calls (Logger.nameFor name')
      · exact (h.levelOf_of_asked rfl ha).trans hu
      · exact (h.levelOf_of_not rfl ha).trans (if_neg hn)
    have hroot : Logger.nameFor Logger.root = Logger.root := rfl
    rw [threshold_of_unset hothers, floor]
    by_cases hr : Asked calls Logger.root
    · exact (h.levelOf_of_asked hroot hr).trans (if_neg fun hn => hn.2 hr).symm
    · exact (h.levelOf_of_not hroot hr).trans (if_pos ⟨hu, hr⟩).symm
  · rw [Journal.threshold, if_pos (hl ▸ hu), hl, floor, if_neg fun hn => hu hn.1]

end Comes

end Journal

end TestGrid
