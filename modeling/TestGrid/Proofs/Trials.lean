import TestGrid.Proofs.Selection

/-!
# The trials of a selection

To select versions is to try the rules of each component on its candidates, one
after the other: these are the *trials* (`Selection.trials`). If all of them are
settled, only a component that is left out can make the selection fail; else it
fails with the fault of the first trial that is not settled
(`Selection.ofCatalog_eq_error_iff`).
-/

namespace TestGrid.Selection

open Fallible Rule

/-- The rules and the candidates on which they are tried, in order. A component
    without rules is passed over. -/
def trials (book : RuleBook) (entries : List (Text × List Text)) : List (List Rule × Text) :=
  (entries.filter fun e => !(book.rulesOf e.1).isEmpty).flatMap fun e =>
    e.2.map (book.rulesOf e.1, ·)

theorem mem_trials_iff {book : RuleBook} {entries : List (Text × List Text)}
    {t : List Rule × Text} : t ∈ trials book entries ↔
      ∃ e ∈ entries, book.rulesOf e.1 ≠ [] ∧ t.1 = book.rulesOf e.1 ∧ t.2 ∈ e.2 := by
  obtain ⟨rules, v⟩ := t
  simp only [trials, List.mem_flatMap, List.mem_filter, Bool.not_eq_true',
    List.isEmpty_eq_false_iff, List.mem_map, Prod.mk.injEq, ne_eq, and_assoc]
  refine exists_congr fun e => and_congr_right fun _ => and_congr_right fun _ => ?_
  constructor
  · rintro ⟨w, hw, rfl, rfl⟩
    exact ⟨rfl, hw⟩
  · rintro ⟨rfl, hv⟩
    exact ⟨v, hv, rfl, rfl⟩

theorem included_eq_error_iff {rules : List Rule} {candidates : List Text} {m : MatchFault} :
    included rules candidates = .error m ↔ candidates.mapM (includes rules) = .error m := by
  induction candidates with
  | nil => exact ⟨fun h => (nomatch h), fun h => (nomatch h)⟩
  | cons v candidates ih =>
    rw [included, List.mapM_cons]
    simp only [bind_eq_error, ih, pure_eq, reduceCtorEq, and_false, exists_false, or_false]

/-- A choice has the fault that the trials of its candidates have. -/
theorem choose_eq_error_iff {fallback : Bool} {rules : List Rule} {candidates : List Text}
    {m : MatchFault} : choose fallback rules candidates = .error m ↔
      (candidates.map (rules, ·)).mapM (fun t => includes t.1 t.2) = .error m := by
  rw [choose, bind_eq_error, included_eq_error_iff, List.mapM_map]
  simp only [pure_eq, reduceCtorEq, and_false, exists_false, or_false]
  rfl

/-- All choices together have the fault that all trials together have. -/
theorem chosen_eq_error_iff {fallback : Bool} {book : RuleBook}
    {entries : List (Text × List Text)} {m : MatchFault} :
    chosen fallback book entries = .error m ↔
      (trials book entries).mapM (fun t => includes t.1 t.2) = .error m := by
  induction entries with
  | nil => exact ⟨fun h => (nomatch h), fun h => (nomatch h)⟩
  | cons e entries ih =>
    rw [chosen, trials, List.filter_cons]
    cases (book.rulesOf e.1).isEmpty with
    | true => exact ih
    | false =>
      -- The first choice fails, or it succeeds and one of the others fails.
      have hok : (∃ vs, choose fallback (book.rulesOf e.1) e.2 = .ok vs) ↔
          ∃ bs, (e.2.map (book.rulesOf e.1, ·)).mapM (fun t => includes t.1 t.2) = .ok bs := by
        rw [← not_error_iff, ← not_error_iff]
        simp only [choose_eq_error_iff]
      simp only [Bool.not_false, if_true, List.flatMap_cons, List.mapM_append, Bool.false_eq_true,
        if_false, bind_eq_error, choose_eq_error_iff, pure_eq, reduceCtorEq, and_false,
        exists_false, or_false, exists_and_right, hok, ih]
      rfl

/-- A selection fails with the fault of the first trial that is not settled. If
    all trials are settled, it fails if components are left out. -/
theorem ofCatalog_eq_error_iff {fallback : Bool} {catalog : Catalog} {book : RuleBook}
    {f : Fault} : ofCatalog fallback catalog book = .error f ↔
      (∃ before t behind m, trials book catalog.entries = before ++ t :: behind ∧
        (∀ t ∈ before, Settle t.1 t.2) ∧ includes t.1 t.2 = .error m ∧ f = .ofMatch m) ∨
      ∃ out, chosen fallback book catalog.entries = .ok out ∧
        unmatched (.ofList out) book ≠ [] ∧ f = .unmatched (unmatched (.ofList out) book) := by
  rw [ofCatalog, bind_eq_error, mapError_eq_error]
  simp only [chosen_eq_error_iff, mapM_eq_error, mapError_eq_ok]
  refine or_congr ?_ (exists_congr fun out => and_congr_right fun _ => ?_)
  · constructor
    · rintro ⟨m, ⟨before, t, behind, ht, hs, hm⟩, rfl⟩
      exact ⟨before, t, behind, m, ht, hs, hm, rfl⟩
    · rintro ⟨before, t, behind, m, ht, hs, hm, rfl⟩
      exact ⟨m, ⟨before, t, behind, ht, hs, hm⟩, rfl⟩
  · rw [Ne, ← List.isEmpty_iff]
    split
    · next he => simp [he]
    · next he => simp [he, eq_comm]

/-- A selection fails for a number that is too long if and only if the first trial
    that is not settled does. -/
theorem ofCatalog_eq_tooLong_iff {fallback : Bool} {catalog : Catalog} {book : RuleBook}
    {n : Nat} : ofCatalog fallback catalog book = .error (.version (.tooLong n)) ↔
      ∃ before t behind, trials book catalog.entries = before ++ t :: behind ∧
        (∀ t ∈ before, Settle t.1 t.2) ∧
        includes t.1 t.2 = .error (.version (.tooLong n)) := by
  rw [ofCatalog_eq_error_iff]
  constructor
  · rintro (⟨before, t, behind, m, ht, hs, hm, he⟩ | ⟨_, -, -, he⟩)
    · cases m <;> cases he
      exact ⟨before, t, behind, ht, hs, hm⟩
    · cases he
  · rintro ⟨before, t, behind, ht, hs, hm⟩
    exact .inl ⟨before, t, behind, _, ht, hs, hm, rfl⟩

end TestGrid.Selection
