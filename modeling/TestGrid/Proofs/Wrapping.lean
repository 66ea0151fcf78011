import TestGrid.Proofs.RuleBook

/-!
# Wrapping

Patterns may stand in brackets, and each of them in quotes. A wrapping is *unclosed*
if its opening mark stands at the start of the text and its closing mark does not
stand at the end (`Rule.Unclosed`), and *unopened* the other way round
(`Rule.Unopened`). Only the opening mark is looked for when a wrapping is taken off.
So an unclosed wrapping is a fault of its line (`RuleBook.refused_iff_broken`), while
an unopened one is no wrapping at all: its mark is a character like any other, and
the line is refused only if something else in it is at fault.
-/

namespace TestGrid

open Version Fallible

namespace Rule

/-! ## Patterns -/

/-- Without its blank margins, the text starts with the opening mark, and does not stand
    between it and the closing one. -/
def Unclosed (opening closing : Char) (t : Text) : Prop :=
  t.trim.head? = some opening ∧ ∀ inner, t.trim ≠ opening :: (inner ++ [closing])

/-- Without its blank margins, the text ends with the closing mark and does not start
    with the opening one. -/
def Unopened (opening closing : Char) (t : Text) : Prop :=
  t.trim.getLast? = some closing ∧ t.trim.head? ≠ some opening

theorem not_unwraps_of_unclosed {o c : Char} {t inner : Text} (h : Unclosed o c t) :
    ¬Unwraps o c t inner :=
  fun hi => hi.elim (h.2 inner) fun hi => hi.1 h.1

theorem unclosed_or_unwraps (o c : Char) (t : Text) :
    Unclosed o c t ∨ ∃ inner, Unwraps o c t inner := by
  by_cases ho : t.trim.head? = some o
  · by_cases hi : ∃ inner, t.trim = o :: (inner ++ [c])
    · exact .inr (hi.imp fun _ => .inl)
    · exact .inl ⟨ho, not_exists.1 hi⟩
  · exact .inr ⟨t.trim, .inr ⟨ho, rfl⟩⟩

/-- A text is unwrapped in one way. -/
theorem Unwraps.unique {o c : Char} {t inner inner' : Text} (h : Unwraps o c t inner)
    (h' : Unwraps o c t inner') : inner = inner' :=
  Except.ok.inj (((unwrap_eq_ok_iff (.inl rfl)).2 h).symm.trans ((unwrap_eq_ok_iff (.inl rfl)).2 h'))

/-- What is in a wrapping is not good if and only if the wrapping is unclosed, or
    something else is in it. -/
theorem not_exists_unwraps_iff {o c : Char} {t : Text} {good : Text → Prop} :
    (¬∃ inner, Unwraps o c t inner ∧ good inner) ↔
      Unclosed o c t ∨ ∃ inner, Unwraps o c t inner ∧ ¬good inner := by
  constructor
  · intro h
    rcases unclosed_or_unwraps o c t with hu | ⟨inner, hi⟩
    · exact .inl hu
    · exact .inr ⟨inner, hi, fun hg => h ⟨inner, hi, hg⟩⟩
  · rintro (hu | ⟨inner, hi, hn⟩) ⟨inner', hi', hg⟩
    · exact not_unwraps_of_unclosed hu hi'
    · exact hn (hi'.unique hi ▸ hg)

/-- A pattern that is none: it is unclosed, between double quotes or single ones in
    these, or it starts as a range without being one. -/
def Broken (t : Text) : Prop :=
  Unclosed '"' '"' t ∨ ∃ t', Unwraps '"' '"' t t' ∧
    (Unclosed '\'' '\'' t' ∨ ∃ inner, Unwraps '\'' '\'' t' inner ∧ ¬IsBare inner.trim)

theorem not_isPattern_iff {t : Text} : ¬IsPattern t ↔ Broken t := by
  simp only [IsPattern, exists_and_left, not_exists_unwraps_iff, Broken]

/-- A quote that is not closed breaks a pattern, be it a double or a single one. -/
theorem Unclosed.broken {q : Char} (hq : q = '"' ∨ q = '\'') {t : Text} (h : Unclosed q q t) :
    Broken t := by
  rcases hq with rfl | rfl
  · exact .inl h
  · -- No double quotes are taken off a text that starts with a single one.
    have hn : t.trim.head? ≠ some '"' := by
      rw [h.1]
      decide
    refine .inr ⟨t.trim, .inr ⟨hn, rfl⟩, .inl ?_⟩
    rw [Unclosed, (Text.trimmed_trim t).trim_eq]
    exact h

end Rule

namespace Statement

/-! ## Lists of patterns -/

/-- Of the wrapping of the list and those of its patterns, one is as the property says,
    which is about an opening mark, a closing one and a text. -/
def SomeWrapping (p : Char → Char → Text → Prop) (patterns : Text) : Prop :=
  p '[' ']' patterns ∨ ∃ inner, Rule.Unwraps '[' ']' patterns inner ∧
    ∃ t ∈ inner.pieces (· = ','), t.trim ≠ [] ∧ ∃ q, (q = '"' ∨ q = '\'') ∧ p q q t

/-- A list of patterns that is none: it is unclosed, or one of its patterns is broken. -/
def Broken (patterns : Text) : Prop :=
  Rule.Unclosed '[' ']' patterns ∨ ∃ inner, Rule.Unwraps '[' ']' patterns inner ∧
    ∃ t ∈ inner.pieces (· = ','), t.trim ≠ [] ∧ Rule.Broken t

theorem not_isList_iff {patterns : Text} : ¬IsList patterns ↔ Broken patterns := by
  simp only [IsList, Rule.not_exists_unwraps_iff, not_forall, Rule.not_isPattern_iff, exists_prop,
    Broken]

theorem broken_of_unclosed {patterns : Text} (h : SomeWrapping Rule.Unclosed patterns) :
    Broken patterns := by
  rcases h with h | ⟨inner, hi, t, ht, hn, q, hq, h⟩
  · exact .inl h
  · exact .inr ⟨inner, hi, t, ht, hn, h.broken hq⟩

/-- A line has the fault of its patterns. -/
theorem ofLine_eq_error_iff {line component patterns : Text} {cause : SyntaxFault}
    (hl : line = component ++ '=' :: patterns) (hc : '=' ∉ component) (hn : component.trim ≠ []) :
    ofLine line = .error cause ↔ readPatterns patterns = .error cause := by
  rw [ofLine, Text.cut_eq_some_iff.2 ⟨hl, hc⟩]
  dsimp only
  rw [if_neg fun h => hn (List.isEmpty_iff.1 h), bind_eq_error, or_iff_left]
  rintro ⟨_, _, h⟩
  cases h

end Statement

namespace RuleBook

/-! ## Lines of a text -/

/-- Line `n` of the text has a component and these patterns, and the lines in front of it
    that speak state rules. -/
def ComesTo (text : Text) (n : Nat) (patterns : Text) : Prop :=
  ∃ before line behind, ∃ component : Text, text.lines = before ++ line :: behind ∧
    1 + before.length = n ∧
    (∀ l ∈ before, Speaks l → ∃ s, Statement.ofLine l.trim = .ok s) ∧
    line.trim = component ++ '=' :: patterns ∧ '=' ∉ component ∧ component.trim ≠ [] ∧
    component.head? ≠ some '#'

variable {text patterns : Text} {n : Nat} {cause : SyntaxFault}

/-- The fault of the patterns is that of the text. -/
theorem ComesTo.ofText_eq_error (h : ComesTo text n patterns)
    (hp : Statement.readPatterns patterns = .error cause) :
    ofText text = .error (.ofSyntax (some n) cause) := by
  obtain ⟨before, line, behind, component, hl, rfl, hok, hline, hc, hn, hhash⟩ := h
  have hspeaks : Speaks line := by
    have hne : component ≠ [] := fun h => hn (by rw [h]; rfl)
    rw [Speaks, hline, List.head?_append_of_ne_nil _ hne]
    exact ⟨List.append_ne_nil_of_left_ne_nil hne _, hhash⟩
  exact ofText_eq_error_iff.2 ⟨before, line, behind, hl, hok, hspeaks, cause,
    (Statement.ofLine_eq_error_iff hline hc hn).2 hp, rfl⟩

/-- A fault of the text in this line is that of the patterns. -/
theorem ComesTo.readPatterns_eq_error (h : ComesTo text n patterns)
    (hf : ofText text = .error (.badRule (some n) cause)) :
    Statement.readPatterns patterns = .error cause ∧ ∀ m, cause ≠ .tooLong m := by
  obtain ⟨before, line, behind, component, hl, rfl, -, hline, hc, hn, -⟩ := h
  obtain ⟨before', line', behind', hl', -, -, cause', hcause, he⟩ := ofText_eq_error_iff.1 hf
  obtain ⟨⟨hlen, rfl⟩, hlong⟩ := ofSyntax_eq_badRule_iff.1 he
  have hlen : before'.length = before.length := Nat.add_left_cancel (Option.some_inj.1 hlen)
  obtain ⟨-, hrest⟩ := List.append_inj (hl'.symm.trans hl) hlen
  cases hrest
  exact ⟨(Statement.ofLine_eq_error_iff hline hc hn).1 hcause, hlong⟩

/-- A line with broken patterns is refused with its number, unless a number in them has too
    many digits, and no line is refused otherwise. Patterns are broken by a wrapping that
    is opened and not closed, around the list or around one of them; a wrapping that is
    closed and not opened breaks none. -/
theorem refused_iff_broken (h : ComesTo text n patterns) :
    (Statement.SomeWrapping Rule.Unclosed patterns → Statement.Broken patterns) ∧
    (Statement.Broken patterns →
      (∃ cause, ofText text = .error (.badRule (some n) cause)) ∨
        ∃ m, ofText text = .error (.version (.tooLong m)) ∧ digitLimit < m ∧ patterns.HasRun m) ∧
    ((∃ cause, ofText text = .error (.badRule (some n) cause)) → Statement.Broken patterns) := by
  have hj := Statement.judged_readPatterns patterns
  refine ⟨Statement.broken_of_unclosed, fun hb => ?_, ?_⟩
  -- Broken patterns have a fault, which is that of the text as this line is the first at fault.
  · obtain ⟨cause, hp, hcause | ⟨m, rfl, hm, hr⟩⟩ :=
      hj.exists_error (Statement.not_isList_iff.2 hb)
    · exact .inl ⟨cause, ofSyntax_of_ne_tooLong hcause ▸ h.ofText_eq_error hp⟩
    · exact .inr ⟨m, h.ofText_eq_error hp, hm, hr⟩
  · rintro ⟨cause, hf⟩
    obtain ⟨hp, hcause⟩ := h.readPatterns_eq_error hf
    rw [hp] at hj
    exact Statement.not_isList_iff.1 (hj.not_of_error hcause)

/-- A single quote is cut off from the one that closes it by a comma. -/
theorem refused_iff_broken_at_comma :
    ComesTo "b=1\na = '1, 2'".toList 2 " '1, 2'".toList ∧
      Statement.SomeWrapping Rule.Unclosed " '1, 2'".toList ∧
      ∃ cause, ofText "b=1\na = '1, 2'".toList = .error (.badRule (some 2) cause) := by
  have hcomes : ComesTo "b=1\na = '1, 2'".toList 2 " '1, 2'".toList := by
    refine ⟨["b=1".toList], "a = '1, 2'".toList, [], "a ".toList, rfl, rfl, fun l hl _ => ?_, rfl,
      by decide, by decide, by decide⟩
    obtain rfl := List.mem_singleton.1 hl
    exact ⟨_, rfl⟩
  have hopen : Statement.SomeWrapping Rule.Unclosed " '1, 2'".toList := by
    refine .inr ⟨"'1, 2'".toList, .inr ⟨by decide, rfl⟩, "'1".toList, by decide, by decide, '\'',
      .inr rfl, rfl, fun inner h => ?_⟩
    -- The mark at the end would be the digit.
    have hlast := congrArg List.getLast? h
    rw [← List.cons_append, List.getLast?_concat] at hlast
    exact absurd hlast (by decide)
  obtain ⟨hbroken, hrefused, -⟩ := refused_iff_broken hcomes
  refine ⟨hcomes, hopen, (hrefused (hbroken hopen)).resolve_right ?_⟩
  rintro ⟨m, -, hm, hr⟩
  exact absurd (Text.countable_of_length_le (by decide) m hr) (Nat.not_le.2 hm)

/-- A bracket at the end of the list and quotes at the ends of its patterns are read as part
    of the versions if they do not stand at the start as well. -/
theorem unopened_marks_kept :
    (∃ book, ComesTo "a=1.0]".toList 1 "1.0]".toList ∧
      Statement.SomeWrapping Rule.Unopened "1.0]".toList ∧
      ofText "a=1.0]".toList = .ok book ∧
      book.get? "a".toList = some [.literal "1.0]".toList false]) ∧
    ∃ book, ComesTo "a=1', 2\"".toList 1 "1', 2\"".toList ∧
      Statement.SomeWrapping Rule.Unopened "1', 2\"".toList ∧
      ofText "a=1', 2\"".toList = .ok book ∧
      book.get? "a".toList = some [.literal "1'".toList false, .literal "2\"".toList false] := by
  refine ⟨⟨_, ?_, .inl ⟨by decide, by decide⟩, rfl, rfl⟩, _, ?_, ?_, rfl, rfl⟩
  · exact ⟨[], _, [], "a".toList, rfl, rfl, nofun, rfl, by decide, by decide,
      by decide⟩
  · exact ⟨[], _, [], "a".toList, rfl, rfl, nofun, rfl, by decide, by decide,
      by decide⟩
  · exact .inr ⟨"1', 2\"".toList, .inr ⟨by decide, rfl⟩, "1'".toList, by decide, by decide, '\'',
      .inr rfl, by decide, by decide⟩

end RuleBook

end TestGrid
