import TestGrid.Proofs.RuleBook
import TestGrid.Proofs.WrittenRules

/-!
# Rule books as they are written

A statement is *legible* if a line can be written that states it: the component
has no margins and no equals sign, and neither it nor a rule has a character in
it that would end the line, the component or the rule (`Statement.Legible`).
These are the statements of the lines of a text
(`RuleBook.legible_of_ofText`), and such a statement is read from its line
(`Statement.ofLine_lineText`). So a rule book that was read may be written and
read again (`RuleBook.ofText_toText_of_unmarked`), unless a rule has no text or
starts with a mark that would be taken off it.
-/

namespace TestGrid

open Version Fallible

namespace Statement

/-! ## Lines -/

/-- A component and rules of which a line can be written. -/
structure Legible (s : Statement) : Prop where
  ne_nil : s.component ≠ []
  trimmed : s.component.Trimmed
  noEquals : '=' ∉ s.component
  noHash : s.component.head? ≠ some '#'
  noBreak : ∀ c ∈ s.component, isBreak c = false
  rules : ∀ rule ∈ s.rules, rule.Legible
  noEnd : ∀ rule ∈ s.rules, ∀ c ∈ rule.toText, c ≠ ',' ∧ isBreak c = false

/-- What a line states is legible, unless the line is a comment. -/
theorem legible_of_ofLine {line : Text} {s : Statement} (ht : line.Trimmed)
    (hh : line.head? ≠ some '#') (hb : ∀ c ∈ line, isBreak c = false)
    (h : ofLine line = .ok s) : s.Legible := by
  obtain ⟨component, patterns, rfl, hn, he, hs, hr⟩ := ofLine_eq_ok_iff.1 h
  have hcomponent : component ≠ [] := by
    rintro rfl
    exact he rfl
  have hpart : component.trim ⊆ component := (Text.trim_infix component).subset
  have hhead : (component ++ '=' :: patterns).head? = component.head? :=
    List.head?_append_of_ne_nil component hcomponent
  rw [hhead] at hh
  exact {
    ne_nil := hs ▸ he
    trimmed := hs ▸ Text.trimmed_trim component
    noEquals := fun hm => hn (hpart (hs ▸ hm))
    noHash := by
      -- The component begins as the line does, which has no margin in front.
      rw [hs, Text.head?_trim fun c hc => ht.1 c (hhead.trans hc)]
      exact hh
    noBreak := fun c hc => hb c (List.mem_append_left _ (hpart (hs ▸ hc)))
    rules := fun rule hm => by
      obtain ⟨p, -, hp⟩ := exists_ofPattern_of_readPatterns hr hm
      exact Rule.legible_of_ofPattern hp
    noEnd := fun rule hm c hc => by
      obtain ⟨p, ⟨hi, -, hp⟩, ho⟩ := exists_ofPattern_of_readPatterns hr hm
      rcases Rule.mem_of_ofPattern ho hc with hc | rfl
      · have hmem := List.mem_append_right component (List.mem_cons_of_mem '=' (hi.subset hc))
        exact ⟨fun he => hp (he ▸ hc), hb c hmem⟩
      · decide }

/-- A rule is read from each text that is its own but for the margins. -/
theorem mapM_ofPattern {ps : List Text} {rules : List Rule}
    (h : List.Forall₂ (fun p rule => Text.trim p = rule.toText) ps rules)
    (hl : ∀ rule ∈ rules, rule.Legible) (hu : ∀ rule ∈ rules, rule.Unmarked) :
    (ps.filter (!·.trim.isEmpty)).mapM Rule.ofPattern = .ok rules := by
  induction h with
  | nil => rfl
  | @cons p rule ps rules hp _ ih =>
    rw [List.forall_mem_cons] at hl hu
    have hkeep : (!p.trim.isEmpty) = true := by simpa [hp] using hu.1.1
    rw [List.filter_cons, if_pos hkeep, List.mapM_cons, Rule.ofPattern_toText hl.1 hu.1 hp, ok_bind,
      ih hl.2 hu.2]
    rfl

/-- The texts of legible rules that are not empty have no margins between them. -/
theorem trimmed_patterns {rules : List Rule} (hl : ∀ rule ∈ rules, rule.Legible)
    (hu : ∀ rule ∈ rules, rule.Unmarked) :
    (Text.joined [',', ' '] (rules.map Rule.toText)).Trimmed := by
  refine (Text.trimmed_joined (List.forall_mem_map.2 fun r hr => ?_) _).1
  exact ⟨(hu r hr).1, (hl r hr).trimmed_toText⟩

/-- Rules are read from their texts, with commas between them. -/
theorem readPatterns_joined {rules : List Rule} (hl : ∀ rule ∈ rules, rule.Legible)
    (hu : ∀ rule ∈ rules, rule.Unmarked) (hc : ∀ rule ∈ rules, ',' ∉ rule.toText) :
    readPatterns (Text.joined [',', ' '] (rules.map Rule.toText)) = .ok rules := by
  have htrim (r : Rule) (hr : r ∈ rules) : Text.trim r.toText = r.toText :=
    (hl r hr).trimmed_toText.trim_eq
  have hjoined := trimmed_patterns hl hu
  cases rules with
  | nil => rfl
  | cons rule rules =>
    have hhead : (Text.joined [',', ' '] ((rule :: rules).map Rule.toText)).head? ≠ some '[' := by
      obtain ⟨r, hr⟩ := Text.joined_eq_append [',', ' '] rule.toText (rules.map Rule.toText)
      have hu := hu rule List.mem_cons_self
      rw [List.map_cons, hr, List.head?_append_of_ne_nil _ hu.1]
      exact hu.2.2.2
    have hpieces :
        Text.pieces (· = ',') (Text.joined [',', ' '] ((rule :: rules).map Rule.toText)) =
          rule.toText :: (rules.map Rule.toText).map ([' '] ++ ·) := by
      have hcomma : ∀ t ∈ (rule :: rules).map Rule.toText, ∀ x ∈ t, decide (x = ',') = false :=
        List.forall_mem_map.2 fun r hr x hx => decide_eq_false fun he => hc r hr (he ▸ hx)
      exact Text.pieces_joined_cons rfl (List.forall_mem_singleton.2 rfl) hcomma
    refine readPatterns_eq_ok_iff.2 ⟨_, Rule.unwraps_self hjoined hhead, ?_⟩
    rw [hpieces, List.map_map]
    -- Behind the first one, the texts have the space in front that is joined with the comma.
    refine mapM_ofPattern (.cons (htrim rule List.mem_cons_self) ?_) hl hu
    refine List.forall₂_map_left_iff.2 (List.forall₂_same.2 fun r hr => ?_)
    have hspace : ∀ c ∈ [' '], isBlank c = true := List.forall_mem_singleton.2 rfl
    exact (Text.trim_append_of_blank hspace _).trans (htrim r (List.mem_cons_of_mem _ hr))

section

variable {s : Statement} (h : s.Legible) (hu : ∀ rule ∈ s.rules, rule.Unmarked)

include h

/-- The line of a statement is one line. -/
theorem isBreak_of_mem_lineText {c : Char} (hc : c ∈ RuleBook.lineText s.component s.rules) :
    isBreak c = false := by
  have hsep : ∀ c ∈ [',', ' '], isBreak c = false :=
    List.forall_mem_cons.2 ⟨rfl, List.forall_mem_singleton.2 rfl⟩
  rcases List.mem_append.1 hc with hc | hc
  · exact h.noBreak c hc
  · rcases List.mem_cons.1 hc with rfl | hc
    · rfl
    · rcases Text.mem_joined hc with hc | ⟨t, ht, hc⟩
      · exact hsep c hc
      · obtain ⟨r, hr, rfl⟩ := List.mem_map.1 ht
        exact (h.noEnd r hr c hc).2

include hu

/-- A legible statement without marks is read from its line. -/
theorem ofLine_lineText : ofLine (RuleBook.lineText s.component s.rules) = .ok s := by
  have hc : s.component.trim = s.component := h.trimmed.trim_eq
  refine ofLine_eq_ok_iff.2 ⟨_, _, rfl, h.noEquals, hc.symm ▸ h.ne_nil, hc.symm, ?_⟩
  exact readPatterns_joined h.rules hu fun rule hr hm => (h.noEnd rule hr _ hm).1 rfl

theorem trim_lineText :
    (RuleBook.lineText s.component s.rules).trim = RuleBook.lineText s.component s.rules := by
  have hequals : Text.Trimmed ['='] := Text.trimmed_of_forall_not (List.forall_mem_singleton.2 rfl)
  exact (h.trimmed.append (hequals.append (trimmed_patterns h.rules hu))).trim_eq

/-- The line of a statement should state something. -/
theorem speaks_lineText : RuleBook.Speaks (RuleBook.lineText s.component s.rules) := by
  rw [RuleBook.Speaks, trim_lineText h hu, RuleBook.lineText,
    List.head?_append_of_ne_nil _ h.ne_nil]
  exact ⟨List.append_ne_nil_of_left_ne_nil h.ne_nil _, h.noHash⟩

end

end Statement

namespace RuleBook

/-! ## Rule books -/

/-- The statements of a rule book that was read are legible. -/
theorem legible_of_ofText {text : Text} {book : RuleBook} (h : ofText text = .ok book) :
    ∀ e ∈ book.entries, Statement.Legible ⟨e.1, e.2⟩ := by
  intro e he
  obtain ⟨line, hline, hspeaks, hl⟩ := exists_line_of_mem_ofText h he
  refine Statement.legible_of_ofLine (Text.trimmed_trim line) hspeaks.2 (fun c hc => ?_) hl
  exact Text.isBreak_of_mem_lines hline ((Text.trim_infix line).subset hc)

/-- What the lines of a roster state is the roster. -/
theorem foldl_put_entries (book : RuleBook) :
    (book.entries.map fun e => (⟨e.1, e.2⟩ : Statement)).foldl put ∅ = book := by
  rw [List.foldl_map]
  exact Roster.ext (Roster.entries_ofList book.nodup)

/-- A rule book that was read is read again from the text that is written for it,
    unless a rule has no text or one that starts with a mark. -/
theorem ofText_toText_of_unmarked {text : Text} {book : RuleBook} (h : ofText text = .ok book)
    (hu : ∀ e ∈ book.entries, ∀ rule ∈ e.2, rule.Unmarked) : ofText book.toText = .ok book := by
  have hl := legible_of_ofText h
  have hspeaks : ∀ e ∈ book.entries, Speaks (lineText e.1 e.2) := fun e he =>
    Statement.speaks_lineText (hl e he) (hu e he)
  have hlines : book.toText.lines = book.entries.map fun e => lineText e.1 e.2 := by
    refine Text.lines_joined (List.forall_mem_map.2 fun e he => ⟨fun hn => ?_, fun c hc => ?_⟩)
    · exact (hspeaks e he).1 (congrArg Text.trim hn)
    · exact Statement.isBreak_of_mem_lineText (hl e he) hc
  have hfilter : book.toText.lines.filter Speaks = book.toText.lines := by
    rw [hlines]
    exact List.filter_eq_self.2 (List.forall_mem_map.2 fun e he => decide_eq_true (hspeaks e he))
  refine ofText_eq_ok_iff.2 ⟨_, ?_, foldl_put_entries book⟩
  -- Each line is that of its entry, and states it again.
  rw [hfilter, hlines, List.map_map, List.forall₂_map_left_iff, List.forall₂_map_right_iff]
  refine List.forall₂_same.2 fun e he => ?_
  rw [Function.comp_apply, Statement.trim_lineText (hl e he) (hu e he)]
  exact Statement.ofLine_lineText (hl e he) (hu e he)

/-- Quotes, brackets, comments and margins are gone from what is written, and a
    component stated twice is written once. -/
theorem quoted_book_read_again :
    ∃ book, ofText "# bounds\nb = [\">= 2.7<3.0\", '! 3.*']\n\na=\nc=1=x, 2\na = <=1 ".toList =
        .ok book ∧
      (∀ e ∈ book.entries, ∀ rule ∈ e.2, rule.Unmarked) ∧
      book.toText = "b=>=2.7 <3.0, !3.*\na=<=1\nc=1=x, 2".toList ∧
      ofText book.toText = .ok book := by
  obtain ⟨book, h, hu, ht⟩ : ∃ book,
      ofText "# bounds\nb = [\">= 2.7<3.0\", '! 3.*']\n\na=\nc=1=x, 2\na = <=1 ".toList =
        .ok book ∧
      (∀ e ∈ book.entries, ∀ rule ∈ e.2, rule.Unmarked) ∧
      book.toText = "b=>=2.7 <3.0, !3.*\na=<=1\nc=1=x, 2".toList := ⟨_, rfl, by decide, rfl⟩
  exact ⟨book, h, hu, ht, ofText_toText_of_unmarked h hu⟩

end RuleBook

end TestGrid
