import TestGrid.Proofs.Grammar
import TestGrid.Proofs.Roster
import TestGrid.RuleBook

/-!
# The texts of rule books

A line *speaks* if it is neither blank nor starts with a hash. A text is
*well-formed* as a rule book if all of its lines that speak state rules. These
texts are those that have a rule book, as long as no run of digits is too long
for a number (`RuleBook.exists_ofText_iff`); every other fault is one of a line
(`RuleBook.ofText_eq_error`).

A rule book has a component for every line that speaks, also if the line lists
no rules; so it is empty if and only if no line speaks
(`RuleBook.entries_eq_nil_iff`).
-/

namespace TestGrid.RuleBook

open Version Fallible

/-- A line that should state something: it is neither blank nor a comment. -/
def Speaks (line : Text) : Prop := line.trim ≠ [] ∧ line.trim.head? ≠ some '#'

instance (line : Text) : Decidable (Speaks line) := inferInstanceAs (Decidable (_ ∧ _))

/-- A text of a rule book: every line that speaks states rules. -/
def WellFormed (text : Text) : Prop :=
  ∀ line ∈ text.lines, Speaks line → Statement.IsLine line.trim

/-- The lines that speak, trimmed, each with its number, which for the first line
    is `n`. -/
def numbered (n : Nat) : List Text → List (Nat × Text)
  | [] => []
  | l :: ls => if Speaks l then (n, l.trim) :: numbered (n + 1) ls else numbered (n + 1) ls

/-- The lines that should state something are those that speak. -/
theorem statementLines_eq (text : Text) : statementLines text = numbered 1 text.lines := by
  have hspeaks (l : Text) : l.trim.isEmpty || l.trim.head? = some '#' ↔ ¬Speaks l := by
    rw [Speaks, not_and_or, not_not, not_not, Bool.or_eq_true, List.isEmpty_iff, decide_eq_true_eq]
  rw [statementLines]
  generalize 1 = n
  induction text.lines generalizing n with
  | nil => rfl
  | cons l ls ih =>
    rw [List.zipIdx_cons, List.filterMap_cons, numbered, ih]
    dsimp only
    by_cases hl : Speaks l
    · rw [if_neg fun h => (hspeaks l).1 h hl, if_pos hl]
    · rw [if_pos ((hspeaks l).2 hl), if_neg hl]

/-- Without their numbers, they are trimmed lines that speak. -/
theorem map_snd_statementLines (text : Text) :
    (statementLines text).map Prod.snd = (text.lines.filter Speaks).map Text.trim := by
  rw [statementLines_eq]
  generalize 1 = n
  induction text.lines generalizing n with
  | nil => rfl
  | cons l ls ih =>
    rw [numbered, List.filter_cons]
    by_cases hl : Speaks l
    · rw [if_pos hl, if_pos (decide_eq_true hl), List.map_cons, List.map_cons, ih]
    · rw [if_neg hl, if_neg (by simpa using hl), ih]

theorem exists_mem_statementLines_iff {text line : Text} :
    (∃ n, (n, line) ∈ statementLines text) ↔ ∃ l ∈ text.lines, Speaks l ∧ l.trim = line := by
  have h : (∃ n, (n, line) ∈ statementLines text) ↔ line ∈ (statementLines text).map Prod.snd := by
    simp
  rw [h, map_snd_statementLines]
  simp [and_assoc]

/-- Every line that speaks is of a kind if and only if all lines that should
    state something are. -/
theorem forall_statementLines_iff {text : Text} {p : Text → Prop} :
    (∀ l ∈ statementLines text, p l.2) ↔ ∀ line ∈ text.lines, Speaks line → p line.trim := by
  constructor
  · intro h line hm hs
    obtain ⟨n, hn⟩ := exists_mem_statementLines_iff.2 ⟨line, hm, hs, rfl⟩
    exact h _ hn
  · intro h l hl
    obtain ⟨line, hm, hs, he⟩ := exists_mem_statementLines_iff.1 ⟨l.1, hl⟩
    exact he ▸ h line hm hs

/-- A line that should state something stands in the text. -/
theorem infix_of_mem_statementLines {text : Text} {l : Nat × Text} (h : l ∈ statementLines text) :
    l.2 <:+: text := by
  obtain ⟨line, hm, -, ht⟩ := exists_mem_statementLines_iff.1 ⟨l.1, h⟩
  exact ht ▸ (Text.trim_infix line).trans (Text.infix_of_mem_lines hm)

/-- The statement of a numbered line. -/
def readLine (l : Nat × Text) : Except Fault Statement :=
  (Statement.ofLine l.2).mapError (.ofSyntax (some l.1))

/-- A rule book with what a line states. -/
def put (book : RuleBook) (s : Statement) : RuleBook := book.insert s.component s.rules

/-- To put statements together is to enter their rules. -/
theorem foldl_put (book : RuleBook) (ss : List Statement) :
    ss.foldl put book = book.insertAll (ss.map fun s => (s.component, s.rules)) := by
  rw [Roster.insertAll, List.foldl_map]
  rfl

/-- To read a rule book is to read all of its lines and to put together what they
    state. -/
theorem ofText_eq (text : Text) :
    ofText text = ((statementLines text).mapM readLine).map fun ss => ss.foldl put ∅ := by
  refine foldlM_eq_map_mapM (fun book l => ?_) _ _
  show enter book l.1 l.2 = _
  rw [enter, readLine]
  cases Statement.ofLine l.2 <;> rfl

/-- The lines that speak state what is put together. -/
theorem ofText_eq_ok_iff {text : Text} {book : RuleBook} :
    ofText text = .ok book ↔ ∃ ss,
      List.Forall₂ (fun l s => Statement.ofLine l = .ok s)
        ((text.lines.filter Speaks).map Text.trim) ss ∧
      ss.foldl put ∅ = book := by
  rw [ofText_eq, map_eq_ok]
  simp only [mapM_eq_ok, readLine, mapError_eq_ok, ← map_snd_statementLines,
    List.forall₂_map_left_iff]

/-- If no run of digits is too long, a text has a rule book if and only if it is
    well-formed. -/
theorem exists_ofText_iff {text : Text} (hc : text.Countable) :
    (∃ book, ofText text = .ok book) ↔ WellFormed text := by
  have hline : ∀ l ∈ statementLines text,
      (∃ s, readLine l = .ok s) ↔ Statement.IsLine l.2 := by
    intro l hl
    have hj := (Statement.judged_ofLine l.2).of_part (infix_of_mem_statementLines hl) .rfl
    simp only [readLine, mapError_eq_ok]
    exact hj.exists_ok_iff hc
  rw [WellFormed, ← forall_statementLines_iff, ← forall₂_congr hline, ← exists_mapM_eq_ok,
    ofText_eq]
  simp [map_eq_ok]

/-- Numbered lines have a fault if and only if it is that of the first of them that
    is not read. -/
theorem mapM_numbered_eq_error_iff {ls : List Text} {n : Nat} {f : Fault} :
    (numbered n ls).mapM readLine = .error f ↔
      ∃ before line behind, ls = before ++ line :: behind ∧
        (∀ l ∈ before, Speaks l → ∃ s, Statement.ofLine l.trim = .ok s) ∧ Speaks line ∧
        readLine (n + before.length, line.trim) = .error f := by
  induction ls generalizing n with
  | nil =>
    refine iff_of_false (fun h => nomatch h) ?_
    rintro ⟨before, line, behind, h, -⟩
    exact absurd h.symm (List.append_ne_nil_of_right_ne_nil _ (List.cons_ne_nil _ _))
  | cons l ls ih =>
    have hnumber (before : List Text) : n + (l :: before).length = n + 1 + before.length := by
      rw [List.length_cons]
      omega
    rw [numbered]
    by_cases hl : Speaks l
    · rw [if_pos hl, List.mapM_cons, bind_eq_error]
      constructor
      · rintro (h | ⟨s, hs, h⟩)
        · exact ⟨[], l, ls, rfl, fun _ h => absurd h List.not_mem_nil, hl, h⟩
        · rcases bind_eq_error.1 h with h | ⟨_, _, h⟩
          · obtain ⟨before, line, behind, rfl, hok, hline⟩ := ih.1 h
            have hread : ∃ s, Statement.ofLine l.trim = .ok s := ⟨s, mapError_eq_ok.1 hs⟩
            exact ⟨l :: before, line, behind, rfl, List.forall_mem_cons.2 ⟨fun _ => hread, hok⟩,
              hnumber before ▸ hline⟩
          · cases h
      · rintro ⟨_ | ⟨_, before⟩, line, behind, h, hok, hs, hline⟩
        · cases h
          exact .inl hline
        · cases h
          obtain ⟨hread, hok⟩ := List.forall_mem_cons.1 hok
          obtain ⟨s, hread⟩ := hread hl
          have hbehind := ih.2 ⟨before, line, behind, rfl, hok, hs, hnumber before ▸ hline⟩
          exact .inr ⟨s, mapError_eq_ok.2 hread, bind_eq_error.2 (.inl hbehind)⟩
    · -- A line that does not speak is only counted.
      rw [if_neg hl, ih]
      constructor
      · rintro ⟨before, line, behind, rfl, hok, hline⟩
        exact ⟨l :: before, line, behind, rfl,
          List.forall_mem_cons.2 ⟨fun h => absurd h hl, hok⟩, hnumber before ▸ hline⟩
      · rintro ⟨_ | ⟨_, before⟩, line, behind, h, hok, hs, hline⟩
        · cases h
          exact absurd hs hl
        · cases h
          exact ⟨before, line, behind, rfl, (List.forall_mem_cons.1 hok).2, hs,
            hnumber before ▸ hline⟩

/-- A fault of a line is one that is not a number with too many digits. -/
theorem ofSyntax_eq_badRule_iff {line line' : Option Nat} {cause cause' : SyntaxFault} :
    Fault.ofSyntax line cause = .badRule line' cause' ↔
      (line = line' ∧ cause = cause') ∧ ∀ n, cause ≠ .tooLong n := by
  cases cause <;> simp [Fault.ofSyntax]

theorem ofSyntax_of_ne_tooLong {line : Option Nat} {cause : SyntaxFault}
    (h : ∀ n, cause ≠ .tooLong n) : Fault.ofSyntax line cause = .badRule line cause :=
  ofSyntax_eq_badRule_iff.2 ⟨⟨rfl, rfl⟩, h⟩

/-- A text has a fault if and only if it is that of its first line that speaks and
    is not read. -/
theorem ofText_eq_error_iff {text : Text} {f : Fault} :
    ofText text = .error f ↔ ∃ before line behind, text.lines = before ++ line :: behind ∧
      (∀ l ∈ before, Speaks l → ∃ s, Statement.ofLine l.trim = .ok s) ∧ Speaks line ∧
      ∃ cause, Statement.ofLine line.trim = .error cause ∧
        .ofSyntax (some (1 + before.length)) cause = f := by
  rw [ofText_eq, map_eq_error, statementLines_eq, mapM_numbered_eq_error_iff]
  simp only [readLine, mapError_eq_error]

/-- A text without a rule book has a line at fault, or a run of digits that is
    too long. -/
theorem ofText_eq_error {text : Text} {f : Fault} (h : ofText text = .error f) :
    (∃ n cause, f = .badRule (some n) cause) ∨
      ∃ n, f = .version (.tooLong n) ∧ digitLimit < n ∧ text.HasRun n := by
  obtain ⟨before, line, behind, hl, -, -, cause, hc, rfl⟩ := ofText_eq_error_iff.1 h
  have hm : line ∈ text.lines := hl ▸ List.mem_append_right _ List.mem_cons_self
  have hj := Statement.judged_ofLine line.trim
  rw [hc] at hj
  cases cause with
  | tooLong n =>
    have hpart : line.trim <:+: text := (Text.trim_infix line).trans (Text.infix_of_mem_lines hm)
    exact .inr ⟨n, rfl, hj.1, hj.2.mono hpart⟩
  | _ => exact .inl ⟨_, _, rfl⟩

/-- If no run of digits is too long, a text without a rule book has a line at
    fault. -/
theorem exists_badRule_of_countable {text : Text} (hc : text.Countable) {f : Fault}
    (h : ofText text = .error f) : ∃ n cause, f = .badRule (some n) cause := by
  rcases ofText_eq_error h with h | ⟨n, -, hn, hr⟩
  · exact h
  · exact absurd (hc n hr) (Nat.not_le_of_lt hn)

/-- A number that is too long is the fault of a text if and only if it is that of
    the first line that is not read. -/
theorem ofText_eq_tooLong_iff {text : Text} {n : Nat} :
    ofText text = .error (.version (.tooLong n)) ↔
      ∃ before l behind, statementLines text = before ++ l :: behind ∧
        (∀ l ∈ before, ∃ s, Statement.ofLine l.2 = .ok s) ∧
        Statement.ofLine l.2 = .error (.tooLong n) := by
  have hline (l : Nat × Text) : readLine l = .error (.version (.tooLong n)) ↔
      Statement.ofLine l.2 = .error (.tooLong n) := by
    rw [readLine, mapError_eq_error]
    constructor
    · rintro ⟨cause, hc, he⟩
      cases cause <;> cases he
      exact hc
    · exact fun hc => ⟨_, hc, rfl⟩
  have hread (l : Nat × Text) : (∃ s, readLine l = .ok s) ↔ ∃ s, Statement.ofLine l.2 = .ok s :=
    exists_congr fun _ => mapError_eq_ok
  rw [ofText_eq, map_eq_error, mapM_eq_error]
  simp only [hline, hread]

/-- A component has rules in a rule book if it had them, or if a line states
    them. -/
theorem exists_mem_of_foldl_put {ss : List Statement} {book : RuleBook} {e : Text × List Rule}
    (h : e ∈ (ss.foldl put book).entries) :
    e ∈ book.entries ∨ ∃ s ∈ ss, e = (s.component, s.rules) := by
  induction ss generalizing book with
  | nil => exact .inl h
  | cons s ss ih =>
    rcases ih h with h | ⟨s', hs, rfl⟩
    · rcases Roster.mem_entries_insert h with rfl | h
      · exact .inr ⟨s, List.mem_cons_self, rfl⟩
      · exact .inl h
    · exact .inr ⟨s', List.mem_cons_of_mem s hs, rfl⟩

/-- A component with rules stands in the rule book with them. -/
theorem mem_entries_rulesOf {book : RuleBook} {c : Text} (h : book.rulesOf c ≠ []) :
    (c, book.rulesOf c) ∈ book.entries := by
  rw [rulesOf] at h ⊢
  cases hc : book.get? c with
  | none =>
    rw [hc] at h
    exact absurd rfl h
  | some rules => exact Roster.get?_eq_some_iff.1 hc

/-- What a rule book has for a component is stated by a line that speaks. -/
theorem exists_line_of_mem_ofText {text : Text} {book : RuleBook} (h : ofText text = .ok book)
    {e : Text × List Rule} (he : e ∈ book.entries) :
    ∃ line ∈ text.lines, Speaks line ∧ Statement.ofLine line.trim = .ok ⟨e.1, e.2⟩ := by
  obtain ⟨ss, hs, rfl⟩ := ofText_eq_ok_iff.1 h
  rcases exists_mem_of_foldl_put he with he | ⟨s, hm, rfl⟩
  · exact absurd he List.not_mem_nil
  · obtain ⟨_, hl, ho⟩ := exists_of_mem_mapM (mapM_eq_ok.2 hs) hm
    obtain ⟨line, hline, rfl⟩ := List.mem_map.1 hl
    obtain ⟨hline, hspeaks⟩ := List.mem_filter.1 hline
    exact ⟨line, hline, of_decide_eq_true hspeaks, ho⟩

/-- The rules in a rule book are of known forms. -/
theorem ne_unknown_of_mem {text : Text} {book : RuleBook} (h : ofText text = .ok book)
    {e : Text × List Rule} (he : e ∈ book.entries) {rule : Rule} (hr : rule ∈ e.2)
    (shown : Text) : rule ≠ .unknown shown := by
  obtain ⟨line, -, -, hl⟩ := exists_line_of_mem_ofText h he
  exact Statement.ne_unknown_of_mem hl hr shown

theorem mem_keys_foldl_put {ss : List Statement} {book : RuleBook} {c : Text} :
    c ∈ (ss.foldl put book).keys ↔ c ∈ book.keys ∨ ∃ s ∈ ss, s.component = c := by
  induction ss generalizing book with
  | nil => simp
  | cons s ss ih =>
    rw [List.foldl_cons, ih, put, Roster.mem_keys_insert]
    simp [or_assoc, eq_comm]

/-- A rule book is empty if and only if no line of its text speaks. -/
theorem entries_eq_nil_iff {text : Text} {book : RuleBook} (h : ofText text = .ok book) :
    book.entries = [] ↔ ∀ line ∈ text.lines, ¬Speaks line := by
  rw [ofText_eq] at h
  obtain ⟨ss, hs, rfl⟩ := map_eq_ok.1 h
  have hss : ss = [] ↔ statementLines text = [] := by
    rw [← List.length_eq_zero_iff, ← List.length_eq_zero_iff, (mapM_eq_ok.1 hs).length_eq]
  have hlines : statementLines text = [] ↔ ∀ line ∈ text.lines, ¬Speaks line := by
    rw [← forall_statementLines_iff (p := fun _ => False), List.eq_nil_iff_forall_not_mem]
  rw [← hlines, ← hss]
  constructor
  · intro he
    cases ss with
    | nil => rfl
    | cons s ss =>
      have hk : s.component ∈ ((s :: ss).foldl put (∅ : RuleBook)).keys :=
        mem_keys_foldl_put.2 (.inr ⟨s, List.mem_cons_self, rfl⟩)
      rw [Roster.keys, he] at hk
      exact absurd hk List.not_mem_nil
  · rintro rfl
    rfl

end TestGrid.RuleBook
