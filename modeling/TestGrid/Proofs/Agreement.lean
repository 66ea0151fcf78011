import TestGrid.Proofs.Arguments
import TestGrid.Proofs.Command
import TestGrid.Proofs.Exclusion
import TestGrid.Proofs.Explanation

/-!
# Explaining and generating

If a rule book has rules for one component only, generating a grid and
explaining this component ask the same question: is there a version of it to
test with? The two runs differ in how far they try the rules. A grid needs a
rule to be tried on a candidate only until an exclusion decides; an explanation
shows them all, so every rule is tried on every candidate. Thus the runs end
with the same status, unless a rule fails behind exclusions that keep it from
being reached (`explain_ends_as_generate`).
-/

namespace TestGrid

open Fallible Files Rule

/-! ## A rule book with one component -/

section Single

variable {book : RuleBook} {c : Text} (hk : book.keys = [c]) (hr : book.rulesOf c ≠ [])

include hk in
theorem rulesOf_eq_nil {c' : Text} (h : c' ≠ c) : book.rulesOf c' = [] := by
  have hn : c' ∉ book.keys := by
    rw [hk, List.mem_singleton]
    exact h
  rw [RuleBook.rulesOf, Roster.get?_eq_none.2 hn]
  rfl

include hk hr

/-- Of all components only the one with rules is given versions. -/
theorem Selection.chosen_eq (fallback : Bool) {entries : List (Text × List Text)}
    (hn : (entries.map Prod.fst).Nodup) :
    chosen fallback book entries = match Roster.valueIn c entries with
      | none => .ok []
      | some candidates => do
        let versions ← choose fallback (book.rulesOf c) candidates
        return if versions.isEmpty then [] else [(c, versions)] := by
  induction entries with
  | nil => rfl
  | cons e entries ih =>
    obtain ⟨c', candidates⟩ := e
    rw [List.map_cons, List.nodup_cons] at hn
    rw [chosen, Roster.valueIn_cons, ih hn.2]
    by_cases hc : c' = c
    · subst hc
      -- No other entry is about the component.
      rw [Roster.valueIn_eq_none_iff.2 hn.1, if_pos rfl,
        if_neg (fun he => hr (List.isEmpty_iff.1 he))]
      dsimp only
      cases choose fallback (book.rulesOf c') candidates with
      | error m => rfl
      | ok versions => rfl
    · rw [rulesOf_eq_nil hk hc, if_neg hc]
      rfl

/-- A selection has the one component with rules, if there is a version of it. -/
theorem Selection.ofCatalog_eq (fallback : Bool) (catalog : Catalog) :
    ofCatalog fallback catalog book = match catalog.get? c with
      | none => .error (.unmatched book.entries)
      | some candidates => do
        let versions ← (choose fallback (book.rulesOf c) candidates).mapError .ofMatch
        if versions.isEmpty then .error (.unmatched book.entries)
        else return .ofList [(c, versions)] := by
  have hnone : unmatched (.ofList []) book = book.entries :=
    List.filter_eq_self.2 fun _ _ => rfl
  have hsome (versions : List Text) : unmatched (.ofList [(c, versions)]) book = [] := by
    rw [unmatched_eq_nil_iff, hk]
    intro c' hc'
    rw [List.mem_singleton] at hc'
    exact hc' ▸ List.mem_cons_self
  have hne : ¬book.entries.isEmpty = true := by
    rw [List.isEmpty_iff]
    intro he
    rw [Roster.keys, he] at hk
    cases hk
  have hleft : (do
      if (unmatched (.ofList []) book).isEmpty then return .ofList []
      else throw (.unmatched (unmatched (.ofList []) book)) : Except Fault Selection) =
        .error (.unmatched book.entries) := by
    rw [hnone, if_neg hne]
    rfl
  rw [ofCatalog, chosen_eq hk hr fallback catalog.nodup, Roster.get?_eq_valueIn]
  cases Roster.valueIn c catalog.entries with
  | none => exact hleft
  | some candidates =>
    dsimp only
    cases choose fallback (book.rulesOf c) candidates with
    | error m => rfl
    | ok versions =>
      cases versions with
      | nil => exact hleft
      | cons v vs =>
        show (if (unmatched (.ofList [(c, v :: vs)]) book).isEmpty then _ else _) = _
        rw [hsome]
        rfl

/-- The plan has the status of the versions selected for the component. -/
theorem Plan.statusOf_ofTexts {catalogText ruleText : Text} {catalog : Catalog}
    (hc : Catalog.ofText catalogText = .ok catalog) (hb : RuleBook.ofText ruleText = .ok book)
    (fallback : Bool) :
    Command.statusOf (fun _ => 0) (ofTexts catalogText ruleText fallback) =
      match catalog.get? c with
      | none => 2
      | some candidates => Command.statusOf Command.statusOfVersions
          (Command.selected fallback (book.rulesOf c, candidates)) := by
  rw [ofTexts, hc, ok_bind, hb, ok_bind, Selection.ofCatalog_eq hk hr]
  cases catalog.get? c with
  | none => rfl
  | some candidates =>
    dsimp only [Command.selected]
    cases Selection.choose fallback (book.rulesOf c) candidates with
    | error m => rfl
    | ok versions =>
      cases versions with
      | nil => rfl
      | cons v vs =>
        have hg : Grid.ofSelection (.ofList [(c, v :: vs)]) =
            .ok (Grid.spread (Roster.ofList [(c, v :: vs)]).entries) := by
          refine Grid.ofSelection_eq_ok_iff.2 ⟨⟨List.cons_ne_nil _ _, fun e he => ?_⟩, rfl⟩
          obtain rfl := List.mem_singleton.1 he
          exact List.cons_ne_nil _ _
        show Command.statusOf (fun _ => 0) (do
          let grid ← Grid.ofSelection (.ofList [(c, v :: vs)])
          return ({ catalog, rules := book, selection := .ofList [(c, v :: vs)], grid } : Plan)) = 0
        rw [hg]
        rfl

omit hk in
/-- To explain the component every rule is tried first; then the same versions
    count. -/
theorem Command.statusOf_inputsOf {catalogText ruleText : Text} {catalog : Catalog}
    (hc : Catalog.ofText catalogText = .ok catalog) (hb : RuleBook.ofText ruleText = .ok book)
    (fallback : Bool) :
    statusOf statusOfVersions (inputsOf c catalogText ruleText >>= explained fallback) =
      match catalog.get? c with
      | none => 2
      | some candidates =>
        statusOf statusOfVersions (explained fallback (book.rulesOf c, candidates)) := by
  rw [inputsOf, hc, ok_bind, hb, ok_bind, if_neg fun he => hr (List.isEmpty_iff.1 he)]
  cases catalog.get? c with
  | none => rfl
  | some candidates => rfl

end Single

/-! ## Rules that fail unreached -/

/-- Selecting versions fails if and only if a rule that fails on some candidate
    is reached: no rule in front of it bars the candidate. -/
theorem Selection.exists_choose_eq_error_iff {fallback : Bool} {rules : List Rule}
    {candidates : List Text} : (∃ m, choose fallback rules candidates = .error m) ↔
      ∃ v ∈ candidates, ∃ before rule behind,
        rules = before ++ rule :: behind ∧ rule.Fails v ∧ ∀ r ∈ before, ¬r.Bars v := by
  have hok : (∃ vs, choose fallback rules candidates = .ok vs) ↔ ∀ v ∈ candidates, Settle rules v :=
    ⟨fun ⟨vs, h⟩ => (choose_eq_ok_iff.1 h).1, fun h => ⟨_, choose_eq_ok_iff.2 ⟨h, rfl⟩⟩⟩
  have hv (v : Text) : ¬Settle rules v ↔ ∃ before rule behind,
      rules = before ++ rule :: behind ∧ rule.Fails v ∧ ∀ r ∈ before, ¬r.Bars v := by
    rw [← exists_includes_eq_error_iff, Settle, ← not_error_iff, not_not]
  simp only [← hv]
  rw [← not_iff_not, not_error_iff, hok]
  simp only [not_exists, not_and, not_not]

namespace Command

theorem statusOf_selected_of_ok {fallback : Bool} {rules : List Rule}
    {candidates versions : List Text}
    (h : Selection.choose fallback rules candidates = .ok versions) :
    statusOf statusOfVersions (selected fallback (rules, candidates)) = 0 ∨
      statusOf statusOfVersions (selected fallback (rules, candidates)) = 2 := by
  rw [selected, h]
  cases versions with
  | nil => exact .inr rfl
  | cons v vs => exact .inl rfl

theorem statusOf_selected_of_error {fallback : Bool} {rules : List Rule} {candidates : List Text}
    {m : MatchFault} (h : Selection.choose fallback rules candidates = .error m) :
    statusOf statusOfVersions (selected fallback (rules, candidates)) = 1 := by
  rw [selected, h]
  exact status_ofMatch m

theorem explained_of_ok {fallback : Bool} {rules : List Rule} {candidates : List Text}
    {ds : List Decision} (h : Explanation.decisions rules candidates = .ok ds) :
    explained fallback (rules, candidates) = selected fallback (rules, candidates) := by
  rw [explained, h]
  rfl

theorem statusOf_explained_of_error {fallback : Bool} {rules : List Rule} {candidates : List Text}
    {m : MatchFault} (h : Explanation.decisions rules candidates = .error m) :
    statusOf statusOfVersions (explained fallback (rules, candidates)) = 1 := by
  rw [explained, h]
  exact status_ofMatch m

/-- Trying all rules on all candidates fails only if selecting by them does: no
    rule fails on any candidate, or one that fails is reached, with no rule in
    front of it that bars the candidate. -/
def FailAlike (rules : List Rule) (candidates : List Text) : Prop :=
  (∀ v ∈ candidates, ∀ rule ∈ rules, ¬rule.Fails v) ∨
    ∃ v ∈ candidates, ∃ before rule behind,
      rules = before ++ rule :: behind ∧ rule.Fails v ∧ ∀ r ∈ before, ¬r.Bars v

/-- Explaining rules and selecting by them have the same status if they fail
    alike; otherwise only explaining fails. -/
theorem statusOf_explained (fallback : Bool) (rules : List Rule) (candidates : List Text) :
    (FailAlike rules candidates →
      statusOf statusOfVersions (explained fallback (rules, candidates)) =
        statusOf statusOfVersions (selected fallback (rules, candidates))) ∧
    (¬FailAlike rules candidates →
      statusOf statusOfVersions (explained fallback (rules, candidates)) = 1 ∧
        (statusOf statusOfVersions (selected fallback (rules, candidates)) = 0 ∨
          statusOf statusOfVersions (selected fallback (rules, candidates)) = 2)) := by
  rw [FailAlike, ← Explanation.exists_decisions_iff, ← Selection.exists_choose_eq_error_iff]
  rcases exists_ok_or_error (Explanation.decisions rules candidates) with ⟨ds, hd⟩ | ⟨m, hd⟩
  · rw [explained_of_ok hd]
    exact ⟨fun _ => rfl, fun h => absurd (.inl ⟨ds, hd⟩) h⟩
  · rw [statusOf_explained_of_error hd, hd]
    rcases exists_ok_or_error (Selection.choose fallback rules candidates) with ⟨vs, hc⟩ | ⟨m', hc⟩
    · refine ⟨fun h => ?_, fun _ => ⟨rfl, statusOf_selected_of_ok hc⟩⟩
      rw [hc] at h
      rcases h with ⟨_, h⟩ | ⟨_, h⟩ <;> cases h
    · rw [statusOf_selected_of_error hc]
      exact ⟨fun _ => rfl, fun h => absurd (.inr ⟨m', hc⟩) h⟩

/-- The rules of a component fail alike on the candidates that a text gives it, if
    it gives any. -/
def Alike (book : RuleBook) (component catalogText : Text) : Prop :=
  ∀ catalog candidates, Catalog.ofText catalogText = .ok catalog →
    catalog.get? component = some candidates → FailAlike (book.rulesOf component) candidates

theorem alike_iff {book : RuleBook} {c catalogText : Text} {catalog : Catalog}
    {candidates : List Text} (hc : Catalog.ofText catalogText = .ok catalog)
    (hv : catalog.get? c = some candidates) :
    Alike book c catalogText ↔ FailAlike (book.rulesOf c) candidates := by
  refine ⟨fun h => h catalog candidates hc hv, fun h catalog' candidates' hc' hv' => ?_⟩
  obtain rfl := Except.ok.inj (hc.symm.trans hc')
  obtain rfl := Option.some.inj (hv.symm.trans hv')
  exact h

section Texts

variable {book : RuleBook} {c catalogText ruleText : Text}
  (hb : RuleBook.ofText ruleText = .ok book) (hk : book.keys = [c]) (hr : book.rulesOf c ≠ [])

include hb hk hr

/-- What holds of rules and candidates holds of the texts of a rule book and a
    catalog. Where the latter is faulty or does not name the component, both runs
    meet the same fault. -/
theorem statusOf_inputsOf_explained (fallback : Bool) :
    (Alike book c catalogText →
      statusOf statusOfVersions (inputsOf c catalogText ruleText >>= explained fallback) =
        statusOf (fun _ => 0) (Plan.ofTexts catalogText ruleText fallback)) ∧
    (¬Alike book c catalogText →
      statusOf statusOfVersions (inputsOf c catalogText ruleText >>= explained fallback) = 1 ∧
        (statusOf (fun _ => 0) (Plan.ofTexts catalogText ruleText fallback) = 0 ∨
          statusOf (fun _ => 0) (Plan.ofTexts catalogText ruleText fallback) = 2)) := by
  cases hc : Catalog.ofText catalogText with
  | error f =>
    have ha : Alike book c catalogText := by
      intro catalog _ h
      rw [hc] at h
      cases h
    refine ⟨fun _ => ?_, fun h => absurd ha h⟩
    rw [inputsOf, Plan.ofTexts, hc]
    rfl
  | ok catalog =>
    rw [statusOf_inputsOf hr hc hb, Plan.statusOf_ofTexts hk hr hc hb]
    cases hv : catalog.get? c with
    | none =>
      have ha : Alike book c catalogText := by
        intro catalog' _ h h'
        obtain rfl := Except.ok.inj (hc.symm.trans h)
        rw [hv] at h'
        cases h'
      exact ⟨fun _ => rfl, fun h => absurd ha h⟩
    | some candidates =>
      rw [alike_iff hc hv]
      exact statusOf_explained fallback (book.rulesOf c) candidates

/-- The same if the text of the catalog must say something. -/
theorem statusOf_ifSaid_explained (fallback : Bool) :
    (Alike book c catalogText →
      statusOf statusOfVersions
          (ifSaid catalogText (inputsOf c catalogText ruleText) >>= explained fallback) =
        statusOf (fun _ => 0) (ifSaid catalogText (Plan.ofTexts catalogText ruleText fallback))) ∧
    (¬Alike book c catalogText →
      statusOf statusOfVersions
          (ifSaid catalogText (inputsOf c catalogText ruleText) >>= explained fallback) = 1 ∧
        (statusOf (fun _ => 0)
            (ifSaid catalogText (Plan.ofTexts catalogText ruleText fallback)) = 0 ∨
          statusOf (fun _ => 0)
            (ifSaid catalogText (Plan.ofTexts catalogText ruleText fallback)) = 2)) := by
  rw [ifSaid, ifSaid]
  by_cases hs : Settings.saysNothing (some catalogText) = true
  · have ha : Alike book c catalogText := by
      intro catalog candidates hc hv
      rw [Catalog.get?_eq_none_of_blank hc (List.isEmpty_iff.1 hs)] at hv
      cases hv
    rw [if_pos hs, if_pos hs]
    exact ⟨fun _ => rfl, fun h => absurd ha h⟩
  · rw [if_neg hs, if_neg hs]
    exact statusOf_inputsOf_explained hb hk hr fallback

end Texts

/-! ## The two commands -/

/-- The status with which the program ends when it is given arguments in a
    workspace. -/
def statusIn (w : Workspace) (env : Environment) (args : List Text) : Nat :=
  exitStatus ((Invocation.ofArguments env args).run.perform w).1

theorem Ends.exitStatus_eq {w : Workspace} (hw : w.journal.OnScreen) {run : Work Nat} {status : Nat}
    (h : Ends w.directory w.tree run status) : exitStatus (run.perform w).1 = status := by
  obtain ⟨tree', outcome, hl, he⟩ := h
  rw [(hl w ⟨rfl, rfl, hw⟩).1, he]

/-- A path has no null character if it has none as seen from a directory. -/
theorem hasNull_of_seenFrom {p directory : Path} (h : (p.seenFrom directory).hasNull = false) :
    p.hasNull = false := by
  rw [Path.seenFrom] at h
  split at h
  · rw [Path.hasNull, List.any_append, Bool.or_eq_false_iff] at h
    exact h.2
  · exact h

/-- With the same inputs, and rules for one component only, explaining this
    component ends with the status with which generating a grid ends, if the
    rules fail alike on its candidates, or if there are no candidates of it.
    Otherwise explaining ends with 1 and generating with 0 or 2. -/
theorem explain_ends_as_generate {w : Workspace} (hw : w.journal.OnScreen) (env : Environment)
    {c candidates rules output t : Text} {book : RuleBook} (fallback : Bool)
    (hc : c.head? ≠ some '-') (h : Ready w.directory w.tree (.ofText rules) (.ofText output) t)
    (hb : RuleBook.ofText t.unifyBreaks = .ok book) (hk : book.keys = [c])
    (hr : book.rulesOf c ≠ []) :
    let explained := statusIn w env (explainArguments c candidates rules fallback)
    let generated := statusIn w env (generateArguments candidates rules output fallback)
    (Alike book c candidates → explained = generated) ∧
      (¬Alike book c candidates → explained = 1 ∧ (generated = 0 ∨ generated = 2)) := by
  intro explained generated
  have hrules := h.rules_held.1
  have houtput := hasNull_of_seenFrom h.output_free.1
  have he : explained = statusOf statusOfVersions
      (ifSaid candidates (inputsOf c candidates t.unifyBreaks) >>= Command.explained fallback) := by
    show statusIn _ _ _ = _
    rw [statusIn, ofArguments_explain env fallback hc hrules]
    exact (ends_explain h.rules_held c candidates fallback).exitStatus_eq hw
  have hg : generated = statusOf (fun _ => 0)
      (ifSaid candidates (Plan.ofTexts candidates t.unifyBreaks fallback)) := by
    show statusIn _ _ _ = _
    rw [statusIn, ofArguments_generate env fallback hrules houtput]
    exact (ends_generate h candidates fallback false false).exitStatus_eq hw
  rw [he, hg]
  exact statusOf_ifSaid_explained hb hk hr fallback

/-- A workspace in the root directory, with one file, which holds the text of a
    rule book. -/
def deskWith (ruleText : Text) : Workspace where
  directory := ⟨.root, []⟩
  tree := ⟨[("r.conf".toList, .file (Text.encode ruleText))]⟩
  gauge := ⟨[], [], []⟩

theorem ready_deskWith (ruleText : Text) :
    Ready (deskWith ruleText).directory (deskWith ruleText).tree (.ofText "r.conf".toList)
      (.ofText "m.txt".toList) ruleText where
  rules_said := rfl
  rules_held := ⟨rfl, _, rfl, Text.decode_encode ruleText⟩
  output_said := rfl
  output_free := ⟨rfl, _, _, rfl, rfl⟩

/-- A bound in front of the exclusion `!1.x` is tried on `1.x` by both commands,
    and fails. -/
theorem explain_ends_as_generate_of_bound_in_front :
    let desk := deskWith "a=>=1.0, !1.x".toList
    statusIn desk ∅ (explainArguments "a".toList "a:1.x,2.0".toList "r.conf".toList true) =
      statusIn desk ∅
        (generateArguments "a:1.x,2.0".toList "r.conf".toList "m.txt".toList true) := by
  intro desk
  obtain ⟨book, exclusion, hb, hk, hr⟩ : ∃ book exclusion,
      RuleBook.ofText (Text.unifyBreaks "a=>=1.0, !1.x".toList) = .ok book ∧
        book.keys = ["a".toList] ∧ book.rulesOf "a".toList =
          [.range ⟨.atLeast, "1.0".toList, ⟨1, 0, 0, 0⟩, rfl⟩, exclusion] :=
    ⟨_, _, rfl, rfl, rfl⟩
  have hne : book.rulesOf "a".toList ≠ [] := by
    rw [hr]
    exact List.cons_ne_nil _ _
  obtain ⟨catalog, hc, hv⟩ : ∃ catalog, Catalog.ofText "a:1.x,2.0".toList = .ok catalog ∧
      catalog.get? "a".toList = some ["1.x".toList, "2.0".toList] := ⟨_, rfl, rfl⟩
  refine (explain_ends_as_generate Journal.onScreen_fresh ∅ true (by decide) (ready_deskWith _) hb
    hk hne).1 ((alike_iff hc hv).2 ?_)
  rw [hr]
  exact .inr ⟨_, List.mem_cons_self, [], _, _, rfl, ⟨_, rfl⟩, fun _ h => absurd h List.not_mem_nil⟩

/-- The exclusion in front keeps the bound from being tried on `1.x`: a grid is
    generated, but the component is not explained. -/
theorem not_explained_though_generated :
    let desk := deskWith "a=!1.x, >=1.0".toList
    Ready desk.directory desk.tree (.ofText "r.conf".toList) (.ofText "m.txt".toList)
      "a=!1.x, >=1.0".toList ∧
    (∃ book, RuleBook.ofText (Text.unifyBreaks "a=!1.x, >=1.0".toList) = .ok book ∧
      book.keys = ["a".toList] ∧ book.rulesOf "a".toList ≠ []) ∧
    statusIn desk ∅ (explainArguments "a".toList "a:1.x,2.0".toList "r.conf".toList true) = 1 ∧
    statusIn desk ∅ (generateArguments "a:1.x,2.0".toList "r.conf".toList "m.txt".toList true) =
      0 := by
  intro desk
  have h := ready_deskWith "a=!1.x, >=1.0".toList
  refine ⟨h, ⟨_, rfl, rfl, List.cons_ne_nil _ _⟩, ?_, ?_⟩
  · rw [statusIn, ofArguments_explain ∅ true (by decide) rfl]
    exact (ends_explain h.rules_held "a".toList "a:1.x,2.0".toList true).exitStatus_eq
      Journal.onScreen_fresh
  · rw [statusIn, ofArguments_generate ∅ true rfl rfl]
    exact (ends_generate h "a:1.x,2.0".toList true false false).exitStatus_eq
      Journal.onScreen_fresh

end Command

end TestGrid
