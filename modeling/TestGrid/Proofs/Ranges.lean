import TestGrid.Proofs.Grammar

/-!
# What is lost of a range

A range is read from its tokens alone. The tokens stand in the pattern in their
order, and none has a blank in it (`RangeToken.texts_scan_sublist`); whatever
else the pattern has is lost. So the rule of a range says what its pattern says,
blanks apart, if and only if each character of the pattern is a blank or belongs
to a token (`Rule.range_keeps_its_text_iff`). It is read in either case: `>=2.x`
is the range `>=2.`.
-/

namespace TestGrid

open Version Fallible

/-- A text without its blanks. -/
def Text.withoutBlanks (t : Text) : Text := t.filter (!isBlank ·)

theorem Text.withoutBlanks_cons_of_blank {c : Char} (h : isBlank c = true) (t : Text) :
    withoutBlanks (c :: t) = t.withoutBlanks := List.filter_cons_of_neg (by simp [h])

theorem Text.withoutBlanks_cons {c : Char} (h : isBlank c = false) (t : Text) :
    withoutBlanks (c :: t) = c :: t.withoutBlanks := List.filter_cons_of_pos (by simp [h])

theorem Text.withoutBlanks_append (a b : Text) :
    withoutBlanks (a ++ b) = a.withoutBlanks ++ b.withoutBlanks := List.filter_append a b

namespace RangeToken

/-- The characters of the versions in ranges are no blanks. -/
theorem isBlank_of_isVersionChar {c : Char} (h : isVersionChar c = true) : isBlank c = false := by
  rw [isVersionChar, Bool.or_eq_true, decide_eq_true_eq] at h
  rcases h with h | rfl
  · exact isBlank_of_isDigit h
  · rfl

/-! ## The texts of tokens -/

/-- The characters of a token. -/
def toText : RangeToken → Text
  | limit l => l.symbol
  | version v => v

/-- The characters of tokens, in order. -/
def texts (ts : List RangeToken) : Text := ts.flatMap toText

theorem texts_consVersion (c : Char) (ts : List RangeToken) :
    texts (consVersion c ts) = c :: texts ts := by
  cases ts with
  | nil => rfl
  | cons t ts => cases t <;> rfl

/-- The tokens stand in the text in their order, and there are no blanks in
    them. -/
theorem texts_scan_sublist (t : Text) : (texts (scan t)).Sublist t.withoutBlanks := by
  fun_induction scan t with
  | case1 => exact List.Sublist.slnil
  | case2 r ih | case3 r ih => exact (ih.cons_cons _).cons_cons _
  | case4 r _ ih | case5 r _ ih => exact ih.cons_cons _
  | case6 c r _ _ _ _ hc _ ih =>
    rw [texts_consVersion, Text.withoutBlanks_cons (isBlank_of_isVersionChar hc)]
    exact ih.cons_cons c
  | case7 c r _ _ _ _ hc _ ih =>
    rw [Text.withoutBlanks_cons (isBlank_of_isVersionChar hc)]
    exact ih.cons_cons c
  | case8 c r _ _ _ _ _ ih => exact ih.trans ((List.sublist_cons_self c r).filter _)

/-- Tokens of a text are without blanks. -/
theorem withoutBlanks_texts_scan (t : Text) : (texts (scan t)).withoutBlanks = texts (scan t) :=
  List.filter_eq_self.2 fun _ hc => (List.mem_filter.1 ((texts_scan_sublist t).subset hc)).2

/-! ## Characters without a token -/

/-- A character belongs to a token, given the character in front of it if there
    is one. An equals sign does if it goes with the sign in front. -/
def Belongs (last : Option Char) (c : Char) : Prop :=
  isVersionChar c = true ∨ c = '<' ∨ c = '>' ∨ c = '=' ∧ (last = some '<' ∨ last = some '>')

/-- Each character of a text that stands behind another character, or behind
    nothing, is a blank or belongs to a token. -/
def OnlyTokens (last : Option Char) (t : Text) : Prop :=
  ∀ before c behind, t = before ++ c :: behind →
    isBlank c = true ∨ Belongs (before.getLast?.or last) c

theorem onlyTokens_nil (last : Option Char) : OnlyTokens last [] := fun _ _ _ h => by simp at h

theorem onlyTokens_cons {last : Option Char} {c : Char} {r : Text} :
    OnlyTokens last (c :: r) ↔ (isBlank c = true ∨ Belongs last c) ∧ OnlyTokens (some c) r := by
  constructor
  · intro h
    refine ⟨h [] c r rfl, fun before d behind hr => ?_⟩
    have := h (c :: before) d behind (hr ▸ rfl)
    rwa [List.getLast?_cons, Option.some_or, ← Option.or_some] at this
  · rintro ⟨hc, h⟩ before d behind hr
    cases before with
    | nil =>
      cases hr
      exact hc
    | cons b before =>
      cases hr
      rw [List.getLast?_cons, Option.some_or, ← Option.or_some]
      exact h before d behind rfl

/-- What stands in front counts only for an equals sign, and only if it is a
    sign. -/
theorem onlyTokens_none_iff {last : Option Char} {t : Text}
    (h : t.head? = some '=' → last ≠ some '<' ∧ last ≠ some '>') :
    OnlyTokens last t ↔ OnlyTokens none t := by
  cases t with
  | nil => exact iff_of_true (onlyTokens_nil last) (onlyTokens_nil none)
  | cons c r =>
    have hb : Belongs last c ↔ Belongs none c := by
      by_cases hc : c = '='
      · subst hc
        simp [Belongs, h rfl]
      · simp [Belongs, hc]
    rw [onlyTokens_cons, onlyTokens_cons, hb]

/-- A character that belongs to a token does not count, unless an equals sign goes
    with it. -/
theorem onlyTokens_cons_iff {c : Char} {r : Text} (hc : isBlank c = true ∨ Belongs none c)
    (h : r.head? = some '=' → c ≠ '<' ∧ c ≠ '>') :
    OnlyTokens none (c :: r) ↔ OnlyTokens none r := by
  rw [onlyTokens_cons, and_iff_right hc]
  exact onlyTokens_none_iff (by simpa using h)

/-- Nor does a limit that is made of two signs. -/
theorem onlyTokens_cons_cons_iff {c : Char} {r : Text} (hc : c = '<' ∨ c = '>') :
    OnlyTokens none (c :: '=' :: r) ↔ OnlyTokens none r := by
  have hb : Belongs none c := hc.elim (fun h => .inr (.inl h)) fun h => .inr (.inr (.inl h))
  have he : Belongs (some c) '=' := .inr (.inr (.inr ⟨rfl, hc.imp (congrArg some) (congrArg some)⟩))
  rw [onlyTokens_cons, onlyTokens_cons, and_iff_right (.inr hb), and_iff_right (.inr he)]
  exact onlyTokens_none_iff (by simp)

/-- The tokens are the whole text but its blanks if and only if no other
    character is without a token. -/
theorem texts_scan_eq_iff (t : Text) :
    texts (scan t) = t.withoutBlanks ↔ OnlyTokens none t := by
  fun_induction scan t with
  | case1 => exact iff_of_true rfl (onlyTokens_nil none)
  | case2 r ih =>
    rw [onlyTokens_cons_cons_iff (.inl rfl), ← ih]
    exact (List.cons_inj_right _).trans (List.cons_inj_right _)
  | case3 r ih =>
    rw [onlyTokens_cons_cons_iff (.inr rfl), ← ih]
    exact (List.cons_inj_right _).trans (List.cons_inj_right _)
  | case4 r hr ih =>
    have he : r.head? ≠ some '=' := fun h => (List.head?_eq_some_iff.1 h).elim hr
    rw [onlyTokens_cons_iff (.inr (.inr (.inl rfl))) fun h => absurd h he, ← ih]
    exact List.cons_inj_right _
  | case5 r hr ih =>
    have he : r.head? ≠ some '=' := fun h => (List.head?_eq_some_iff.1 h).elim hr
    rw [onlyTokens_cons_iff (.inr (.inr (.inr (.inl rfl)))) fun h => absurd h he, ← ih]
    exact List.cons_inj_right _
  | case6 c r _ _ hl hg hc _ ih =>
    rw [texts_consVersion, Text.withoutBlanks_cons (isBlank_of_isVersionChar hc),
      onlyTokens_cons_iff (.inr (.inl hc)) fun _ => ⟨hl, hg⟩, ← ih]
    exact List.cons_inj_right _
  | case7 c r _ _ hl hg hc _ ih =>
    rw [Text.withoutBlanks_cons (isBlank_of_isVersionChar hc),
      onlyTokens_cons_iff (.inr (.inl hc)) fun _ => ⟨hl, hg⟩, ← ih]
    exact List.cons_inj_right _
  | case8 c r _ _ hl hg hc ih =>
    by_cases hb : isBlank c = true
    · rw [Text.withoutBlanks_cons_of_blank hb, onlyTokens_cons_iff (.inl hb) fun _ => ⟨hl, hg⟩, ih]
    · -- The character is lost, so the tokens are shorter than the text.
      have hlen := (texts_scan_sublist r).length_le
      rw [Text.withoutBlanks_cons (Bool.eq_false_iff.2 hb)]
      refine iff_of_false (fun h => ?_) fun h => ?_
      · rw [h, List.length_cons] at hlen
        omega
      · have hsign : c = '<' ∨ c = '>' := by simpa [Belongs, hb, hc] using (onlyTokens_cons.1 h).1
        exact hsign.elim hl hg

end RangeToken

namespace Rule

theorem texts_boundTokens (bs : List Bound) :
    RangeToken.texts (boundTokens (bs.map fun b => (b.limit, b.version))) =
      bs.flatMap Bound.toText := by
  induction bs with
  | nil => rfl
  | cons b bs ih =>
    rw [List.flatMap_cons, ← ih, Bound.toText, List.append_assoc]
    rfl

/-- The rule of a range has one bound or two, and the pattern has their tokens. -/
theorem bounds_of_ofRange {pattern : Text} {rule : Rule} (h : ofRange pattern = .ok rule) :
    ∃ bs : List Bound,
      RangeToken.scan pattern = boundTokens (bs.map fun b => (b.limit, b.version)) ∧
      ((∃ b, bs = [b] ∧ rule = range b) ∨ ∃ b c, bs = [b, c] ∧ rule = interval b c) := by
  obtain ⟨bs, hb, h⟩ := bind_eq_ok.1 h
  refine ⟨bs, (boundTokens_of_readBounds hb).2, ?_⟩
  match bs with
  | [b] =>
    cases h
    exact .inl ⟨b, rfl, rfl⟩
  | [b, c] =>
    cases h
    exact .inr ⟨b, c, rfl, rfl⟩
  | [] | _ :: _ :: _ :: _ => cases h

/-- Without its blanks, the rule of a range is written with the tokens of its
    pattern. -/
theorem withoutBlanks_toText_of_ofRange {pattern : Text} {rule : Rule}
    (h : ofRange pattern = .ok rule) :
    rule.toText.withoutBlanks = RangeToken.texts (RangeToken.scan pattern) := by
  obtain ⟨bs, hs, h⟩ := bounds_of_ofRange h
  rw [← RangeToken.withoutBlanks_texts_scan, hs, texts_boundTokens]
  rcases h with ⟨b, rfl, rfl⟩ | ⟨b, c, rfl, rfl⟩
  · rw [List.flatMap_singleton]
    rfl
  · -- The blank between the bounds is the only difference.
    rw [toText, Text.withoutBlanks_append, Text.withoutBlanks_cons_of_blank rfl, List.flatMap_cons,
      List.flatMap_singleton, Text.withoutBlanks_append]

/-- A pattern is read as a range if it has the tokens of one, whatever stands
    between them. The rule has nothing but what the pattern has, blanks apart, and
    has all of it if and only if no other character of the pattern is without a
    token. -/
theorem range_keeps_its_text_iff (pattern : Text) :
    (pattern.Countable → ((∃ rule, ofRange pattern = .ok rule) ↔ IsRange pattern)) ∧
    ∀ rule, ofRange pattern = .ok rule →
      rule.toText.withoutBlanks.Sublist pattern.withoutBlanks ∧
      (rule.toText.withoutBlanks = pattern.withoutBlanks ↔
        RangeToken.OnlyTokens none pattern) := by
  refine ⟨(judged_ofRange pattern).exists_ok_iff, fun rule h => ?_⟩
  rw [withoutBlanks_toText_of_ofRange h]
  exact ⟨RangeToken.texts_scan_sublist pattern, RangeToken.texts_scan_eq_iff pattern⟩

/-- Of an interval with blanks around its versions, the blanks are all that is
    lost. -/
theorem interval_keeps_its_text :
    Text.Countable ">= 2.7  <3.0".toList ∧ IsRange ">= 2.7  <3.0".toList ∧
      RangeToken.OnlyTokens none ">= 2.7  <3.0".toList ∧
      ∃ rule, ofRange ">= 2.7  <3.0".toList = .ok rule ∧
        rule.toText.withoutBlanks = ">=2.7<3.0".toList := by
  have hc : Text.Countable ">= 2.7  <3.0".toList := Text.countable_of_length_le (by decide)
  have hr : IsRange ">= 2.7  <3.0".toList :=
    ⟨[(.atLeast, "2.7".toList), (.below, "3.0".toList)], .inr rfl, rfl⟩
  have ho : RangeToken.OnlyTokens none ">= 2.7  <3.0".toList :=
    (RangeToken.texts_scan_eq_iff _).1 rfl
  obtain ⟨rule, h⟩ := ((range_keeps_its_text_iff _).1 hc).2 hr
  exact ⟨hc, hr, ho, rule, h, (((range_keeps_its_text_iff _).2 rule h).2).2 ho⟩

/-- Ranges that are garbled are read as others: of `2.x` the digit and the dot are
    left, of `>==` the first equals sign, and of `3.0-beta` the number. -/
theorem garbled_ranges_read :
    (∃ rule, ofRange ">=2.x".toList = .ok rule ∧ rule.toText = ">=2.".toList ∧
      rule.toText.withoutBlanks ≠ Text.withoutBlanks ">=2.x".toList) ∧
    (∃ rule, ofRange ">==3.0".toList = .ok rule ∧ rule.toText = ">=3.0".toList ∧
      rule.toText.withoutBlanks ≠ Text.withoutBlanks ">==3.0".toList) ∧
    ∃ rule, ofRange "<3.0-beta".toList = .ok rule ∧ rule.toText = "<3.0".toList ∧
      rule.toText.withoutBlanks ≠ Text.withoutBlanks "<3.0-beta".toList :=
  ⟨⟨_, rfl, rfl, by decide⟩, ⟨_, rfl, rfl, by decide⟩, ⟨_, rfl, rfl, by decide⟩⟩

end Rule

end TestGrid
