import TestGrid.Proofs.Joined
import TestGrid.Proofs.Wrapping

/-!
# Spellings of a line

The patterns of a line may stand in brackets, each of them may stand in quotes, and
there may be margins around all of these and blank patterns among them. Those are
*spellings* of the same line (`Statement.SpellsLine`), and all of them say the same:
they have the same rules or the same fault (`RuleBook.same_in_all_spellings`), which
is that of the patterns without any of this, one by one.

The plain line is a spelling as well. So nothing is compared: each spelling is read
to what the patterns themselves are read to, a pattern at a time
(`Rule.SpellsToken.ofPattern_eq`), then a list of them
(`Statement.SpellsList.readPatterns_eq`), and at last the line.
-/

namespace TestGrid

open Fallible

namespace Text

/-- Blanks that end no line. -/
def Margin (m : Text) : Prop := ∀ c ∈ m, isBlank c = true ∧ isBreak c = false

instance (m : Text) : Decidable m.Margin := List.decidableBAll _ m

/-- The second text is the first one between margins. -/
def Padded (t p : Text) : Prop := ∃ m m', Margin m ∧ Margin m' ∧ p = m ++ t ++ m'

theorem margin_nil : Margin [] := fun _ h => absurd h List.not_mem_nil

theorem padded_self (t : Text) : Padded t t :=
  ⟨[], [], margin_nil, margin_nil, (List.append_nil t).symm⟩

theorem Padded.trim_eq {t p : Text} (h : Padded t p) : p.trim = t.trim := by
  obtain ⟨m, m', hm, hm', rfl⟩ := h
  rw [trim_append_blank _ fun c hc => (hm' c hc).1, trim_append_of_blank fun c hc => (hm c hc).1]

/-- What all blanks that end no line have, a text has between margins if it has it
    without. -/
theorem Padded.forall_mem {t p : Text} (h : Padded t p) {P : Char → Prop}
    (hblank : ∀ c, isBlank c = true → isBreak c = false → P c) (ht : ∀ c ∈ t, P c) :
    ∀ c ∈ p, P c := by
  obtain ⟨m, m', hm, hm', rfl⟩ := h
  simp only [List.mem_append]
  rintro c ((hc | hc) | hc)
  · exact hblank c (hm c hc).1 (hm c hc).2
  · exact ht c hc
  · exact hblank c (hm' c hc).1 (hm' c hc).2

end Text

namespace Rule

/-! ## Tokens -/

/-- A pattern that is not blank and has none of the marks of a list. -/
def IsToken (t : Text) : Prop :=
  t.trim ≠ [] ∧ ∀ c ∈ t, c ∉ [',', '"', '\'', '[', ']'] ∧ isBreak c = false

instance (t : Text) : Decidable (IsToken t) :=
  have := List.decidableBAll (fun c => c ∉ [',', '"', '\'', '[', ']'] ∧ isBreak c = false) t
  inferInstanceAs (Decidable (_ ∧ _))

/-- Spellings of a token: with margins, and maybe in quotes, which may have margins inside
    as well. -/
inductive SpellsToken (t : Text) : Text → Prop
  | bare {p : Text} (h : Text.Padded t p) : SpellsToken t p
  | quoted {q : Char} {inner p : Text} (hq : q = '"' ∨ q = '\'') (hi : Text.Padded t inner)
      (h : Text.Padded (q :: (inner ++ [q])) p) : SpellsToken t p

/-- A text that stands between no marks is only trimmed. -/
theorem unwrap_of_head? {q : Char} {t : Text} (h : t.trim.head? ≠ some q) :
    unwrap [q] [] t = .ok t.trim := (unwrap_eq_ok_iff (.inr ⟨rfl, rfl⟩)).2 (.inr ⟨h, rfl⟩)

/-- A text that stands between marks is taken from them. -/
theorem unwrap_of_marks {q : Char} {t inner : Text} (h : t.trim = q :: (inner ++ [q])) :
    unwrap [q] [] t = .ok inner := (unwrap_eq_ok_iff (.inr ⟨rfl, rfl⟩)).2 (.inl h)

/-- A text between marks that are not blank is trimmed. -/
theorem trim_marks {o c : Char} (ho : isBlank o = false) (hc : isBlank c = false) (inner : Text) :
    Text.trim (o :: (inner ++ [c])) = o :: (inner ++ [c]) := by
  have hone {d : Char} (hd : isBlank d = false) : Text.Trimmed [d] :=
    Text.trimmed_of_forall_not (List.forall_mem_singleton.2 hd)
  exact ((hone ho).around (hone hc) (List.cons_ne_nil _ _) (List.cons_ne_nil _ _) inner).trim_eq

/-- A pattern is read without its margins. -/
theorem ofPattern_trim (p : Text) : ofPattern p.trim = ofPattern p := by
  rw [ofPattern, ofPattern, unwrap, unwrap, (Text.trimmed_trim p).trim_eq]

variable {t p : Text}

/-- A token starts with no quote. -/
theorem IsToken.head?_trim_ne {q : Char} (h : IsToken t) (hq : q = '"' ∨ q = '\'') :
    t.trim.head? ≠ some q := by
  intro hh
  have hm := ((Text.trim_infix t).subset (List.mem_of_mem_head? hh))
  rcases hq with rfl | rfl
  · exact (h.2 _ hm).1 (by decide)
  · exact (h.2 _ hm).1 (by decide)

/-- Each spelling of a token is read as the token itself. -/
theorem SpellsToken.ofPattern_eq (h : SpellsToken t p) (ht : IsToken t) :
    ofPattern p = ofBare t.trim := by
  have hdouble := ht.head?_trim_ne (.inl rfl)
  have hsingle := ht.head?_trim_ne (.inr rfl)
  have htrim : Text.trim t.trim = t.trim := (Text.trimmed_trim t).trim_eq
  -- Quotes of one kind are taken off where they are, and those of the other are not there.
  cases h with
  | bare h =>
    rw [← ofPattern_trim, h.trim_eq, ofPattern_trim, ofPattern, unwrap_of_head? hdouble, ok_bind,
      unwrap_of_head? (by rwa [htrim]), ok_bind, htrim, htrim]
  | @quoted q inner p hq hi h =>
    rcases hq with rfl | rfl
    · have hp : p.trim = '"' :: (inner ++ ['"']) := by rw [h.trim_eq, trim_marks rfl rfl]
      rw [ofPattern, unwrap_of_marks hp, ok_bind, unwrap_of_head? (by rwa [hi.trim_eq]), ok_bind,
        hi.trim_eq, htrim]
    · have hp : p.trim = '\'' :: (inner ++ ['\'']) := by rw [h.trim_eq, trim_marks rfl rfl]
      have hn : p.trim.head? ≠ some '"' := by
        rw [hp, List.head?_cons]
        decide
      rw [ofPattern, unwrap_of_head? hn, ok_bind,
        unwrap_of_marks ((Text.trimmed_trim p).trim_eq.trans hp), ok_bind, hi.trim_eq]

/-- No spelling of a token is blank. -/
theorem SpellsToken.trim_ne_nil (h : SpellsToken t p) (ht : IsToken t) : p.trim ≠ [] := by
  cases h with
  | bare h => rw [h.trim_eq]; exact ht.1
  | quoted hq _ h =>
    rcases hq with rfl | rfl <;> rw [h.trim_eq, trim_marks rfl rfl] <;> exact List.cons_ne_nil _ _

/-- Spelling puts in blanks and quotes only. -/
theorem SpellsToken.forall_mem (h : SpellsToken t p) {P : Char → Prop}
    (hblank : ∀ c, isBlank c = true → isBreak c = false → P c)
    (hquote : ∀ q, q = '"' ∨ q = '\'' → P q) (ht : ∀ c ∈ t, P c) : ∀ c ∈ p, P c := by
  cases h with
  | bare h => exact h.forall_mem hblank ht
  | @quoted q inner _ hq hi h =>
    refine h.forall_mem hblank (List.forall_mem_cons.2 ⟨hquote q hq, ?_⟩)
    exact List.forall_mem_append.2 ⟨hi.forall_mem hblank ht,
      List.forall_mem_singleton.2 (hquote q hq)⟩

end Rule

namespace Statement

/-! ## Lists -/

/-- Spellings of several tokens, among which there may be blank ones. -/
inductive SpellsTokens : List Text → List Text → Prop
  | nil : SpellsTokens [] []
  | blank {ts ps : List Text} {m : Text} (hm : m.Margin) (h : SpellsTokens ts ps) :
      SpellsTokens ts (m :: ps)
  | token {ts ps : List Text} {t p : Text} (ht : Rule.SpellsToken t p) (h : SpellsTokens ts ps) :
      SpellsTokens (t :: ts) (p :: ps)

/-- Spellings of a list of tokens: around commas, and maybe in brackets. -/
inductive SpellsList (ts : List Text) : Text → Prop
  | bare {ps : List Text} (h : SpellsTokens ts ps) : SpellsList ts (Text.joined [','] ps)
  | bracketed {ps : List Text} (h : SpellsTokens ts ps) :
      SpellsList ts ('[' :: (Text.joined [','] ps ++ [']']))

/-- The rules of patterns, without the blank ones among them. -/
def readAll (ps : List Text) : Except SyntaxFault (List Rule) :=
  (ps.filter (!·.trim.isEmpty)).mapM Rule.ofPattern

/-- The patterns may be trimmed before. -/
theorem readAll_map_trim (ps : List Text) : readAll (ps.map Text.trim) = readAll ps := by
  have hblank : (fun p : Text => !p.trim.isEmpty) ∘ Text.trim = fun p => !p.trim.isEmpty := by
    funext p
    simp only [Function.comp_apply, (Text.trimmed_trim p).trim_eq]
  rw [readAll, readAll, List.filter_map, hblank, List.mapM_map]
  exact congrArg (List.mapM · _) (funext Rule.ofPattern_trim)

/-- And so may the list in which they stand. -/
theorem readAll_pieces_trim (t : Text) :
    readAll (t.trim.pieces (· = ',')) = readAll (t.pieces (· = ',')) := by
  have hsep : ∀ c, isBlank c = true → decide (c = ',') = false := by
    refine fun c hc => decide_eq_false ?_
    rintro rfl
    cases hc
  rw [← readAll_map_trim, Text.map_trim_pieces_trim hsep, readAll_map_trim]

/-- The patterns of a list are those between its commas. -/
theorem readPatterns_of_unwraps {patterns inner : Text}
    (h : Rule.Unwraps '[' ']' patterns inner) :
    readPatterns patterns = readAll (inner.pieces (· = ',')) := by
  rw [readPatterns, (Rule.unwrap_eq_ok_iff (.inl rfl)).2 h, ok_bind, readAll]

variable {ts ps : List Text}

/-- Spelled tokens are read as the tokens themselves. -/
theorem SpellsTokens.readAll_eq (h : SpellsTokens ts ps) (ht : ∀ t ∈ ts, Rule.IsToken t) :
    readAll ps = ts.mapM fun t => Rule.ofBare t.trim := by
  induction h with
  | nil => rfl
  | @blank ts ps m hm _ ih =>
    -- It is left out.
    have hblank : m.trim = [] := Text.trim_eq_nil_iff.2 fun c hc => (hm c hc).1
    rw [readAll, List.filter_cons_of_neg (by simp [hblank])]
    exact ih ht
  | @token ts ps t p hp _ ih =>
    obtain ⟨ht, hts⟩ := List.forall_mem_cons.1 ht
    rw [readAll, List.filter_cons_of_pos (by simpa using hp.trim_ne_nil ht), List.mapM_cons,
      List.mapM_cons, hp.ofPattern_eq ht]
    exact congrArg (_ >>= ·) (funext fun r => congrArg (· >>= _) (ih hts))

/-- The characters of the pieces of a list: no commas, no brackets, no ends of lines. -/
theorem SpellsTokens.inner (h : SpellsTokens ts ps) (ht : ∀ t ∈ ts, Rule.IsToken t) :
    ∀ p ∈ ps, ∀ c ∈ p, c ∉ [',', '[', ']'] ∧ isBreak c = false := by
  have hblank : ∀ c, isBlank c = true → isBreak c = false →
      c ∉ [',', '[', ']'] ∧ isBreak c = false := by
    refine fun c hc hb => ⟨fun hm => ?_, hb⟩
    simp only [List.mem_cons, List.not_mem_nil, or_false] at hm
    rcases hm with rfl | rfl | rfl <;> cases hc
  induction h with
  | nil => exact fun _ hp => absurd hp List.not_mem_nil
  | blank hm _ ih =>
    exact List.forall_mem_cons.2 ⟨fun c hc => hblank c (hm c hc).1 (hm c hc).2, ih ht⟩
  | token hp _ ih =>
    obtain ⟨ht, hts⟩ := List.forall_mem_cons.1 ht
    refine List.forall_mem_cons.2 ⟨hp.forall_mem hblank ?_ ?_, ih hts⟩
    · rintro q (rfl | rfl) <;> exact ⟨by decide, rfl⟩
    · have hmarks : [',', '[', ']'] ⊆ [',', '"', '\'', '[', ']'] := by decide
      exact fun c hc => (ht.2 c hc).imp_left fun h hm => h (hmarks hm)

/-- The pieces of a joined list are its parts, or nothing if there are none. -/
theorem SpellsTokens.readAll_pieces (h : SpellsTokens ts ps) (ht : ∀ t ∈ ts, Rule.IsToken t) :
    readAll ((Text.joined [','] ps).pieces (· = ',')) = ts.mapM fun t => Rule.ofBare t.trim := by
  rcases eq_or_ne ps [] with rfl | hn
  · cases h
    rfl
  · have hcomma : ∀ p ∈ ps, ∀ c ∈ p, decide (c = ',') = false := fun p hp c hc =>
      decide_eq_false fun he => (h.inner ht p hp c hc).1 (he ▸ List.mem_cons_self)
    rw [Text.pieces_joined (decide_eq_true rfl) hn hcomma]
    exact h.readAll_eq ht

/-- Each spelling of a list is read as its tokens. -/
theorem SpellsList.readPatterns_eq {list patterns : Text} (h : SpellsList ts list)
    (hp : Text.Padded list patterns) (ht : ∀ t ∈ ts, Rule.IsToken t) :
    readPatterns patterns = ts.mapM fun t => Rule.ofBare t.trim := by
  cases h with
  | @bare ps h =>
    have hn : patterns.trim.head? ≠ some '[' := by
      intro hh
      rw [hp.trim_eq] at hh
      rcases Text.mem_joined ((Text.trim_infix _).subset (List.mem_of_mem_head? hh)) with hc | hc
      · exact absurd hc (by decide)
      · obtain ⟨p, hp, hc⟩ := hc
        exact (h.inner ht p hp _ hc).1 (by decide)
    rw [readPatterns_of_unwraps (.inr ⟨hn, rfl⟩), hp.trim_eq, readAll_pieces_trim]
    exact h.readAll_pieces ht
  | @bracketed ps h =>
    rw [readPatterns_of_unwraps (.inl (hp.trim_eq.trans (Rule.trim_marks rfl rfl _)))]
    exact h.readAll_pieces ht

/-! ## Lines -/

/-- A name of a component: it is not blank, starts no comment, and neither an equals sign
    nor the end of a line stands in it. -/
def IsName (c : Text) : Prop :=
  c.trim ≠ [] ∧ c.trim.head? ≠ some '#' ∧ '=' ∉ c ∧ ∀ x ∈ c, isBreak x = false

instance (c : Text) : Decidable (IsName c) :=
  have := List.decidableBAll (fun x => isBreak x = false) c
  inferInstanceAs (Decidable (_ ∧ _))

/-- Spellings of the line that states tokens for a component. -/
def SpellsLine (c : Text) (ts : List Text) (line : Text) : Prop :=
  ∃ name list patterns : Text, Text.Padded c name ∧ SpellsList ts list ∧
    Text.Padded list patterns ∧ line = name ++ '=' :: patterns

/-- The plain line is a spelling. -/
theorem spellsLine_plain (c : Text) (ts : List Text) :
    SpellsLine c ts (c ++ '=' :: Text.joined [','] ts) := by
  have htokens : SpellsTokens ts ts := by
    induction ts with
    | nil => exact .nil
    | cons t ts ih => exact .token (.bare (Text.padded_self t)) ih
  exact ⟨c, _, _, Text.padded_self c, .bare htokens, Text.padded_self _, rfl⟩

/-- The patterns may be trimmed at the end of the line. -/
theorem readPatterns_trimEnd (patterns : Text) :
    readPatterns patterns.trimEnd = readPatterns patterns := by
  rw [readPatterns, readPatterns, Rule.unwrap, Rule.unwrap, Text.trim_trimEnd]

/-- Between margins a name is one still. -/
theorem IsName.of_padded {c name : Text} (h : IsName c) (hn : Text.Padded c name) :
    IsName name := by
  refine ⟨hn.trim_eq ▸ h.1, hn.trim_eq ▸ h.2.1, ?_, hn.forall_mem (fun _ _ hb => hb) h.2.2.2⟩
  have hequals : ∀ x ∈ name, x ≠ '=' :=
    hn.forall_mem (fun x hx _ he => by subst he; cases hx) fun x hx he => h.2.2.1 (he ▸ hx)
  exact fun hm => hequals _ hm rfl

/-- The list of a spelled line ends no line. -/
theorem SpellsList.isBreak_eq {ts : List Text} {list : Text} (h : SpellsList ts list)
    (ht : ∀ t ∈ ts, Rule.IsToken t) : ∀ c ∈ list, isBreak c = false := by
  have hjoined {ps : List Text} (h : SpellsTokens ts ps) :
      ∀ c ∈ Text.joined [','] ps, isBreak c = false := by
    intro c hc
    rcases Text.mem_joined hc with hc | ⟨p, hp, hc⟩
    · exact List.mem_singleton.1 hc ▸ rfl
    · exact (h.inner ht p hp c hc).2
  cases h with
  | bare h => exact hjoined h
  | bracketed h =>
    exact List.forall_mem_cons.2 ⟨rfl, List.forall_mem_append.2 ⟨hjoined h,
      List.forall_mem_singleton.2 rfl⟩⟩

end Statement

namespace RuleBook

/-- A text of one line has the rules of its patterns for its component, or their fault. -/
theorem ofText_of_line {name patterns : Text} (hn : Statement.IsName name)
    (hp : ∀ c ∈ patterns, isBreak c = false) :
    ofText (name ++ '=' :: patterns) = ((Statement.readPatterns patterns).map fun rules =>
      Roster.ofList [(name.trim, rules)]).mapError (.ofSyntax (some 1)) := by
  obtain ⟨hblank, hhash, hequals, hbreak⟩ := hn
  have hlines : (name ++ '=' :: patterns).lines = [name ++ '=' :: patterns] :=
    Text.lines_of_forall_not (List.append_ne_nil_of_right_ne_nil _ (List.cons_ne_nil _ _))
      (List.forall_mem_append.2 ⟨hbreak, List.forall_mem_cons.2 ⟨rfl, hp⟩⟩)
  have htrim := Text.trim_append_cons (c := '=') rfl name patterns
  have hstart : name.trimStart ≠ [] := fun h => hblank (by rw [← Text.trim_trimStart, h]; rfl)
  have hspeaks : Speaks (name ++ '=' :: patterns) := by
    refine ⟨by simp [htrim], ?_⟩
    obtain ⟨r, hr⟩ := Text.trim_prefix_trimStart name
    rwa [htrim, List.head?_append_of_ne_nil _ hstart, ← hr, List.head?_append_of_ne_nil _ hblank]
  have hcut : Text.cut '=' (name ++ '=' :: patterns).trim =
      some (name.trimStart, patterns.trimEnd) :=
    Text.cut_eq_some_iff.2
      ⟨htrim, fun h => hequals ((List.dropWhile_sublist isBlank).subset h)⟩
  have hline : Statement.ofLine (name ++ '=' :: patterns).trim =
      (Statement.readPatterns patterns).map (Statement.mk name.trim) := by
    rw [Statement.ofLine, hcut]
    dsimp only
    rw [Text.trim_trimStart, if_neg fun h => hblank (List.isEmpty_iff.1 h),
      Statement.readPatterns_trimEnd]
    rfl
  rw [ofText_eq, statementLines_eq, hlines, numbered, if_pos hspeaks, numbered, List.mapM_cons,
    readLine, hline]
  cases Statement.readPatterns patterns <;> rfl

/-- All spellings of a line have the same rules or the same fault. -/
theorem same_in_all_spellings {c : Text} (hc : Statement.IsName c) {ts : List Text}
    (ht : ∀ t ∈ ts, Rule.IsToken t) {line : Text} (h : Statement.SpellsLine c ts line) :
    ofText line = ofText (c ++ '=' :: Text.joined [','] ts) ∧
      ofText line = ((ts.mapM fun t => Rule.ofBare t.trim).map fun rules =>
        Roster.ofList [(c.trim, rules)]).mapError (.ofSyntax (some 1)) := by
  have hread {line : Text} (h : Statement.SpellsLine c ts line) :
      ofText line = ((ts.mapM fun t => Rule.ofBare t.trim).map fun rules =>
        Roster.ofList [(c.trim, rules)]).mapError (.ofSyntax (some 1)) := by
    obtain ⟨name, list, patterns, hname, hlist, hpatterns, rfl⟩ := h
    rw [ofText_of_line (hc.of_padded hname)
        (hpatterns.forall_mem (fun _ _ hb => hb) (hlist.isBreak_eq ht)),
      hlist.readPatterns_eq hpatterns ht, hname.trim_eq]
  exact ⟨(hread h).trans (hread (Statement.spellsLine_plain c ts)).symm, hread h⟩

/-- A list in brackets with a token in quotes of either kind, a blank one and a bare one. -/
theorem same_in_wrapped_line :
    let ts : List Text := ["1.0".toList, "!2.*".toList, ">=1 <2".toList]
    let line : Text := "\ta =[ '1.0' ,,\" !2.*\",>=1 <2 , ] ".toList
    Statement.IsName "a".toList ∧ (∀ t ∈ ts, Rule.IsToken t) ∧
      Statement.SpellsLine "a".toList ts line ∧
      ofText line = ofText "a=1.0,!2.*,>=1 <2".toList ∧
      ∃ b c, ofText line = .ok (Roster.ofList [("a".toList, [.literal "1.0".toList false,
        .wildcard "2.*".toList true, .interval b c])]) := by
  intro ts line
  have hc : Statement.IsName "a".toList := by decide
  have ht : ∀ t ∈ ts, Rule.IsToken t := by decide
  have hps : Statement.SpellsTokens ts [" '1.0' ".toList, [], "\" !2.*\"".toList,
      ">=1 <2 ".toList, " ".toList] :=
    .token (.quoted (.inr rfl) (Text.padded_self _) ⟨[' '], [' '], by decide, by decide, rfl⟩) <|
      .blank (by decide) <|
        .token (.quoted (.inl rfl) ⟨[' '], [], by decide, by decide, rfl⟩ (Text.padded_self _)) <|
          .token (.bare ⟨[], [' '], by decide, by decide, rfl⟩) <| .blank (by decide) .nil
  have hl : Statement.SpellsLine "a".toList ts line :=
    ⟨"\ta ".toList, _, _, ⟨['\t'], [' '], by decide, by decide, rfl⟩, .bracketed hps,
      ⟨[], [' '], by decide, by decide, rfl⟩, rfl⟩
  obtain ⟨hplain, hread⟩ := same_in_all_spellings hc ht hl
  exact ⟨hc, ht, hl, hplain, _, _, hread⟩

end RuleBook

end TestGrid
