import TestGrid.Proofs.RuleBook

/-!
# Rule books that are continued

A text that goes on behind a line feed has the lines of both of its parts
(`Text.lines_append_feed`): those of the first part with the line feed, which are
its own and perhaps an empty one (`Text.lines_append_singleton`), and those of the
second part. They are counted from one end to the other, whatever ends them.

So reading the whole has the outcome of reading both parts in order
(`RuleBook.ofText_continued`). The fault of a text is that of its first line that
speaks and states no rules (`RuleBook.ofText_eq_error_iff`), which is one of the
first part if that has a fault, and else the one of the second part, behind all
lines of the first.
-/

namespace TestGrid

open Fallible

/-! ## Lines -/

namespace Text

/-- A text has a line unless it is empty. -/
theorem lines_eq_nil_iff {t : Text} : lines t = [] ↔ t = [] := by
  fun_induction lines t with
  | case1 => exact iff_of_true rfl rfl
  | case2 | case3 => exact iff_of_false (List.cons_ne_nil _ _) (List.cons_ne_nil _ _)
  | case4 c r => cases lines r <;> simp [consFirst]

/-- In front of a line feed, a character ends a line or goes to the first one, but
    for a carriage return right before the line feed. -/
theorem lines_cons_append {c : Char} {r : Text} (hr : ∀ s, c = '\r' → r = '\n' :: s → False)
    (hl : ¬(c = '\r' ∧ r = [])) (t : Text) :
    lines (c :: (r ++ '\n' :: t)) =
      if isBreak c then [] :: lines (r ++ '\n' :: t) else consFirst c (lines (r ++ '\n' :: t)) := by
  refine lines.eq_3 c _ fun s hc he => ?_
  cases r with
  | nil => exact hl ⟨hc, rfl⟩
  | cons d r =>
    cases he
    exact hr r hc rfl

/-- The lines of a text go on behind a line feed. If a carriage return stands in
    front of it, the two end one line. -/
theorem lines_append_feed (a b : Text) :
    lines (a ++ '\n' :: b) = lines (a ++ ['\n']) ++ lines b := by
  fun_induction lines a with
  | case1 => rfl
  | case2 r ih => exact congrArg ([] :: ·) ih
  | case3 c r hr hc ih =>
    by_cases hl : c = '\r' ∧ r = []
    · obtain ⟨rfl, rfl⟩ := hl
      rfl
    · rw [List.cons_append, List.cons_append, lines_cons_append hr hl, lines_cons_append hr hl,
        if_pos hc, if_pos hc, ih]
      rfl
  | case4 c r hr hc ih =>
    have hl : ¬(c = '\r' ∧ r = []) := fun hl => hc (hl.1 ▸ rfl)
    have hn : lines (r ++ ['\n']) ≠ [] :=
      mt lines_eq_nil_iff.1 (List.append_ne_nil_of_right_ne_nil r (List.cons_ne_nil _ _))
    rw [List.cons_append, List.cons_append, lines_cons_append hr hl, lines_cons_append hr hl,
      if_neg hc, if_neg hc, ih, consFirst_append c hn]

/-- A line feed at the end may add an empty line, and changes no other. -/
theorem lines_append_singleton (a : Text) :
    ∃ last, lines (a ++ ['\n']) = lines a ++ last ∧ ∀ l ∈ last, l = [] := by
  fun_induction lines a with
  | case1 => exact ⟨[[]], rfl, List.forall_mem_singleton.2 rfl⟩
  | case2 r ih =>
    obtain ⟨last, he, hl⟩ := ih
    exact ⟨last, congrArg ([] :: ·) he, hl⟩
  | case3 c r hr hc ih =>
    by_cases hl : c = '\r' ∧ r = []
    · obtain ⟨rfl, rfl⟩ := hl
      exact ⟨[], rfl, fun _ h => absurd h List.not_mem_nil⟩
    · obtain ⟨last, he, hlast⟩ := ih
      rw [List.cons_append, lines_cons_append hr hl, if_pos hc, he]
      exact ⟨last, rfl, hlast⟩
  | case4 c r hr hc ih =>
    have hl : ¬(c = '\r' ∧ r = []) := fun hl => hc (hl.1 ▸ rfl)
    obtain ⟨last, he, hlast⟩ := ih
    rw [List.cons_append, lines_cons_append hr hl, if_neg hc, he]
    by_cases hn : lines r = []
    · -- The character is a line by itself, which the line feed ends.
      obtain rfl := lines_eq_nil_iff.1 hn
      obtain rfl : last = [[]] := he.symm
      exact ⟨[], rfl, fun _ h => absurd h List.not_mem_nil⟩
    · exact ⟨last, consFirst_append c hn last, hlast⟩

end Text

/-! ## Rule books -/

namespace RuleBook

/-- A line that speaks is not empty. -/
theorem not_speaks_nil : ¬Speaks [] := fun h => h.1 rfl

/-- The lines that speak are those of both parts. -/
theorem filter_lines_continued (a b : Text) :
    (a ++ '\n' :: b).lines.filter Speaks = a.lines.filter Speaks ++ b.lines.filter Speaks := by
  obtain ⟨last, he, hlast⟩ := Text.lines_append_singleton a
  have hn : last.filter Speaks = [] := List.filter_eq_nil_iff.2 fun l hl => by
    rw [hlast l hl]
    exact fun h => not_speaks_nil (of_decide_eq_true h)
  rw [Text.lines_append_feed, he, List.filter_append, List.filter_append, hn, List.append_nil]

/-- If both parts are read, so is the whole, with what the second part states
    entered behind the first. -/
theorem ofText_continued {a b : Text} {book book' : RuleBook} (ha : ofText a = .ok book)
    (hb : ofText b = .ok book') :
    ∃ both, ofText (a ++ '\n' :: b) = .ok both ∧
      both.keys = book.keys ++ book'.keys.filter (· ∉ book.keys) ∧
      ∀ c, both.get? c = (book'.get? c).or (book.get? c) := by
  obtain ⟨ss, hs, rfl⟩ := ofText_eq_ok_iff.1 ha
  obtain ⟨ss', hs', rfl⟩ := ofText_eq_ok_iff.1 hb
  refine ⟨ss'.foldl put (ss.foldl put ∅), ofText_eq_ok_iff.2 ⟨ss ++ ss', ?_, ?_⟩, ?_, fun c => ?_⟩
  · rw [filter_lines_continued, List.map_append]
    exact List.rel_append hs hs'
  · rw [List.foldl_append]
  · rw [foldl_put (ss.foldl put ∅), Roster.keys_insertAll, foldl_put ∅ ss']
    exact congrArg _ (List.filter_congr fun c _ => decide_eq_decide.2 .rfl)
  · rw [foldl_put (ss.foldl put ∅), Roster.get?_insertAll, foldl_put ∅ ss']
    rfl

/-- The fault of a first part is that of the whole. -/
theorem ofText_eq_error_of_front {a : Text} {f : Fault} (h : ofText a = .error f) (b : Text) :
    ofText (a ++ '\n' :: b) = .error f := by
  obtain ⟨before, line, behind, hl, hline⟩ := ofText_eq_error_iff.1 h
  obtain ⟨last, he, -⟩ := Text.lines_append_singleton a
  refine ofText_eq_error_iff.2 ⟨before, line, behind ++ last ++ b.lines, ?_, hline⟩
  rw [Text.lines_append_feed, he, hl]
  simp only [List.append_assoc, List.cons_append]

/-- Each line of a text with a rule book is read, if it speaks. -/
theorem exists_ofLine_of_ofText {text : Text} {book : RuleBook} (h : ofText text = .ok book) :
    ∀ l ∈ text.lines, Speaks l → ∃ s, Statement.ofLine l.trim = .ok s := by
  obtain ⟨ss, hs, -⟩ := ofText_eq_ok_iff.1 h
  intro l hl hspeaks
  refine exists_mapM_eq_ok.1 ⟨ss, mapM_eq_ok.2 hs⟩ l.trim (List.mem_map_of_mem ?_)
  exact List.mem_filter.2 ⟨hl, decide_eq_true hspeaks⟩

/-- Behind a first part without a fault, the fault of the second one is that of the
    whole, with the lines of the first part counted too. -/
theorem ofText_eq_error_of_back {a b : Text} {book : RuleBook} (ha : ofText a = .ok book) {n : Nat}
    {cause : SyntaxFault} (hb : ofText b = .error (.badRule (some n) cause)) :
    ofText (a ++ '\n' :: b) = .error (.badRule (some ((a ++ ['\n']).lines.length + n)) cause) := by
  obtain ⟨before, line, behind, hl, hok, hspeaks, cause', hline, hf⟩ := ofText_eq_error_iff.1 hb
  obtain ⟨⟨hn, rfl⟩, hlong⟩ := ofSyntax_eq_badRule_iff.1 hf
  obtain rfl := Option.some_inj.1 hn
  obtain ⟨last, he, hlast⟩ := Text.lines_append_singleton a
  refine ofText_eq_error_iff.2 ⟨(a ++ ['\n']).lines ++ before, line, behind, ?_, ?_, hspeaks,
    cause', hline, ofSyntax_eq_badRule_iff.2 ⟨⟨?_, rfl⟩, hlong⟩⟩
  · rw [Text.lines_append_feed, hl, List.append_assoc]
  · intro l hm hs
    rw [he, List.append_assoc, List.mem_append, List.mem_append] at hm
    rcases hm with hm | hm | hm
    · exact exists_ofLine_of_ofText ha l hm hs
    · exact absurd (hlast l hm ▸ hs) not_speaks_nil
    · exact hok l hm hs
  · rw [List.length_append, Nat.add_left_comm]

/-- If no run of digits is too long, the fault of a text is that of its first line
    that speaks and states no rules, with the number of this line. -/
theorem ofText_eq_error_of_countable {text : Text} (hc : text.Countable) {f : Fault}
    (h : ofText text = .error f) : ∃ before line behind cause,
      text.lines = before ++ line :: behind ∧
      (∀ l ∈ before, Speaks l → Statement.IsLine l.trim) ∧
      (Speaks line ∧ ¬Statement.IsLine line.trim ∧ Statement.ofLine line.trim = .error cause) ∧
      f = .badRule (some (before.length + 1)) cause := by
  obtain ⟨before, line, behind, hl, hok, hspeaks, cause, hline, rfl⟩ := ofText_eq_error_iff.1 h
  have hjudged {l : Text} (hm : l ∈ text.lines) :
      (∃ s, Statement.ofLine l.trim = .ok s) ↔ Statement.IsLine l.trim := by
    have hpart : l.trim <:+: text := (Text.trim_infix l).trans (Text.infix_of_mem_lines hm)
    exact ((Statement.judged_ofLine l.trim).of_part hpart .rfl).exists_ok_iff hc
  have hmem : line ∈ text.lines := hl ▸ List.mem_append_right _ List.mem_cons_self
  obtain ⟨_, _, he⟩ := exists_badRule_of_countable hc h
  refine ⟨before, line, behind, cause, hl, fun l hm hs => ?_, ⟨hspeaks, ?_, hline⟩, ?_⟩
  · exact (hjudged (hl ▸ List.mem_append_left _ hm)).1 (hok l hm hs)
  · rw [← hjudged hmem, hline]
    exact fun ⟨_, h⟩ => nomatch h
  · have hlong := (ofSyntax_eq_badRule_iff.1 he).2
    exact ofSyntax_eq_badRule_iff.2 ⟨⟨congrArg some (Nat.add_comm 1 _), rfl⟩, hlong⟩

/-- The message on a line names its number. -/
theorem message_badRule (n : Nat) (cause : SyntaxFault) :
    (Fault.badRule (some (n + 1)) cause).message = s!"line {n + 1}: {cause.message}" := by
  have hn : ((n + 1 : Nat) : Int) ≠ 0 := by omega
  have hs : toString ((n + 1 : Nat) : Int) = toString (n + 1) := rfl
  show Fault.located ((n + 1 : Nat) : Int) cause.message = _
  rw [Fault.located, if_neg hn, hs]

/-- A text in two parts with a line feed between them, in which no run of digits is
    too long, is read as its parts are:

    * if the first part has a fault, this is the fault of the whole, with the
      number of the same line;
    * if only the second part has one, the whole has it too, with the lines up to
      the line feed counted in front;
    * if both have rule books, that of the whole has the components of the first
      one and behind them those which only the second one has, with the rules of
      the second one wherever it has some.

    The number in the fault of a text is that of the first line that speaks and
    states no rules. -/
theorem ofText_in_parts {a b : Text} (ha : a.Countable) (hb : b.Countable) :
    let whole := a ++ '\n' :: b
    let count := (a ++ ['\n']).lines.length
    (∀ f, ofText a = .error f → ofText whole = .error f ∧ ∃ n cause, f = .badRule (some n) cause) ∧
    (∀ book, ofText a = .ok book →
      (∀ f, ofText b = .error f → ∃ n cause, f = .badRule (some n) cause ∧
        f.message = s!"line {n}: {cause.message}" ∧
        ∃ f', ofText whole = .error f' ∧ f' = .badRule (some (count + n)) cause ∧
          f'.message = s!"line {count + n}: {cause.message}") ∧
      ∀ book', ofText b = .ok book' → ∃ both, ofText whole = .ok both ∧
        both.keys = book.keys ++ book'.keys.filter (· ∉ book.keys) ∧
        ∀ c, both.get? c = (book'.get? c).or (book.get? c)) ∧
    ∀ text : Text, text.Countable → ∀ f, ofText text = .error f →
      ∃ before line behind cause, text.lines = before ++ line :: behind ∧
        (∀ l ∈ before, Speaks l → Statement.IsLine l.trim) ∧
        (Speaks line ∧ ¬Statement.IsLine line.trim ∧ Statement.ofLine line.trim = .error cause) ∧
        f = .badRule (some (before.length + 1)) cause := by
  intro whole count
  refine ⟨fun f hf => ⟨ofText_eq_error_of_front hf b, exists_badRule_of_countable ha hf⟩,
    fun book hbook => ⟨fun f hf => ?_, fun book' hbook' => ofText_continued hbook hbook'⟩,
    fun text hc f hf => ofText_eq_error_of_countable hc hf⟩
  obtain ⟨before, -, -, cause, -, -, -, rfl⟩ := ofText_eq_error_of_countable hb hf
  exact ⟨_, cause, rfl, message_badRule before.length cause, _,
    ofText_eq_error_of_back hbook hf, rfl, message_badRule _ cause⟩

/-- A carriage return at the end of the first part ends its line together with the
    line feed, and a line separator in the second part ends one too. -/
theorem ofText_in_parts_of_breaks :
    Text.Countable "# one\na=1\r".toList ∧ Text.Countable "b=2\u2028c".toList ∧
      ∃ f, ofText ("# one\na=1\r".toList ++ '\n' :: "b=2\u2028c".toList) = .error f ∧
        f = .badRule (some 4) (.noEquals ['c']) ∧
        f.message = "line 4: Missing '=' in rule line: c" := by
  have ha : Text.Countable "# one\na=1\r".toList := Text.countable_of_length_le (by decide)
  have hb : Text.Countable "b=2\u2028c".toList := Text.countable_of_length_le (by decide)
  obtain ⟨book, hbook⟩ : ∃ book, ofText "# one\na=1\r".toList = .ok book := ⟨_, rfl⟩
  have hf : ofText "b=2\u2028c".toList = .error (.badRule (some 2) (.noEquals ['c'])) := rfl
  obtain ⟨n, cause, he, -, f', hw, rfl, hm⟩ := ((ofText_in_parts ha hb).2.1 book hbook).1 _ hf
  cases he
  exact ⟨ha, hb, _, hw, rfl, hm⟩

end RuleBook

end TestGrid
