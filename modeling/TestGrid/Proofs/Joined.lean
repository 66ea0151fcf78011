import TestGrid.Proofs.Pieces

/-!
# Texts put together

Texts that are joined around a separator are the pieces of the result, if none
of them has the separator (`pieces_joined`). Likewise texts without an end of a
line are the lines of the text that joins them around line feeds
(`lines_joined`), and no line of a text has such an end in it
(`isBreak_of_mem_lines`).
-/

namespace TestGrid.Text

@[simp] theorem joined_singleton (sep t : Text) : joined sep [t] = t := List.intercalate_singleton

/-- The first text is followed by a separator and the others. -/
theorem joined_cons_cons (sep t u : Text) (ts : List Text) :
    joined sep (t :: u :: ts) = t ++ sep ++ joined sep (u :: ts) := List.intercalate_cons_cons

/-- Joined texts start with the first of them. -/
theorem joined_eq_append (sep t : Text) (ts : List Text) :
    ∃ r, joined sep (t :: ts) = t ++ r := by
  cases ts with
  | nil => exact ⟨[], by rw [joined_singleton, List.append_nil]⟩
  | cons u ts => exact ⟨_, by rw [joined_cons_cons, List.append_assoc]⟩

/-- Joined texts have no other characters than those of the texts and of the
    separator. -/
theorem mem_joined {sep : Text} {ts : List Text} {c : Char} (h : c ∈ joined sep ts) :
    c ∈ sep ∨ ∃ t ∈ ts, c ∈ t := by
  induction ts with
  | nil => exact absurd h List.not_mem_nil
  | cons t ts ih =>
    cases ts with
    | nil =>
      rw [joined_singleton] at h
      exact .inr ⟨t, List.mem_cons_self, h⟩
    | cons u ts =>
      rw [joined_cons_cons, List.mem_append, List.mem_append] at h
      rcases h with (h | h) | h
      · exact .inr ⟨t, List.mem_cons_self, h⟩
      · exact .inl h
      · exact (ih h).imp_right fun ⟨v, hv, hc⟩ => ⟨v, List.mem_cons_of_mem t hv, hc⟩

/-- Trimmed texts, joined around anything, are trimmed. -/
theorem trimmed_joined {ts : List Text} (h : ∀ t ∈ ts, t ≠ [] ∧ t.Trimmed) (sep : Text) :
    (joined sep ts).Trimmed ∧ (ts ≠ [] → joined sep ts ≠ []) := by
  induction ts with
  | nil => exact ⟨trimmed_nil, fun hn => absurd rfl hn⟩
  | cons t ts ih =>
    obtain ⟨⟨hn, ht⟩, hts⟩ := List.forall_mem_cons.1 h
    cases ts with
    | nil =>
      rw [joined_singleton]
      exact ⟨ht, fun _ => hn⟩
    | cons u ts =>
      obtain ⟨hj, hjn⟩ := ih hts
      rw [joined_cons_cons]
      exact ⟨ht.around hj hn (hjn (List.cons_ne_nil _ _)) sep, fun _ => by simp [hn]⟩

/-! ## Pieces -/

/-- What stands in front of the first separator is a piece. -/
theorem pieces_cons_of_forall_not {sep : Char → Bool} {p : Text} {c : Char}
    (hp : ∀ x ∈ p, sep x = false) (hc : sep c = true) (t : Text) :
    pieces sep (p ++ c :: t) = p :: pieces sep t := by
  rw [pieces_append_cons hc, pieces_of_forall_not hp, List.singleton_append]

/-- What stands in front of joined texts belongs to the first of them. -/
theorem append_joined (s sep p : Text) (ps : List Text) :
    s ++ joined sep (p :: ps) = joined sep ((s ++ p) :: ps) := by
  cases ps with
  | nil => rw [joined_singleton, joined_singleton]
  | cons q ps =>
    rw [joined_cons_cons, joined_cons_cons, ← List.append_assoc, ← List.append_assoc]

/-- Joined texts are the pieces of the result. The separator may go on behind the
    character that separates, and this goes to the piece behind. -/
theorem pieces_joined_cons {sep : Char → Bool} {c : Char} {s : Text} (hc : sep c = true)
    (hs : ∀ x ∈ s, sep x = false) {p : Text} {ps : List Text}
    (h : ∀ q ∈ p :: ps, ∀ x ∈ q, sep x = false) :
    pieces sep (joined (c :: s) (p :: ps)) = p :: ps.map (s ++ ·) := by
  induction ps generalizing p with
  | nil =>
    rw [joined_singleton]
    exact pieces_of_forall_not (h p List.mem_cons_self)
  | cons q ps ih =>
    obtain ⟨hp, h⟩ := List.forall_mem_cons.1 h
    obtain ⟨hq, h⟩ := List.forall_mem_cons.1 h
    have hsq : ∀ x ∈ s ++ q, sep x = false := fun x hx =>
      (List.mem_append.1 hx).elim (hs x) (hq x)
    rw [joined_cons_cons, List.append_assoc, List.cons_append, pieces_cons_of_forall_not hp hc,
      append_joined, ih (List.forall_mem_cons.2 ⟨hsq, h⟩)]
    rfl

theorem pieces_joined {sep : Char → Bool} {c : Char} (hc : sep c = true) {ps : List Text}
    (hn : ps ≠ []) (h : ∀ q ∈ ps, ∀ x ∈ q, sep x = false) : pieces sep (joined [c] ps) = ps := by
  cases ps with
  | nil => exact absurd rfl hn
  | cons p ps =>
    rw [pieces_joined_cons hc (fun _ hx => absurd hx List.not_mem_nil) h]
    exact congrArg _ (List.map_id ps)

/-! ## Lines -/

/-- A line has no end of a line in it. -/
theorem isBreak_of_mem_lines {t l : Text} {c : Char} (hl : l ∈ lines t) (hc : c ∈ l) :
    isBreak c = false := by
  fun_induction lines t generalizing l with
  | case1 => exact absurd hl List.not_mem_nil
  | case2 r ih =>
    rcases List.mem_cons.1 hl with rfl | hl
    · exact absurd hc List.not_mem_nil
    · exact ih hl hc
  | case3 d r _ _ ih =>
    rcases List.mem_cons.1 hl with rfl | hl
    · exact absurd hc List.not_mem_nil
    · exact ih hl hc
  | case4 d r _ hd ih =>
    rcases mem_consFirst hl with ⟨q, hq, rfl⟩ | hl
    · rcases List.mem_cons.1 hc with rfl | hc
      · exact Bool.eq_false_iff.2 hd
      · rcases hq with rfl | hq
        · exact absurd hc List.not_mem_nil
        · exact ih hq hc
    · exact ih hl hc

/-- A character that does not end a line goes to the line that it stands in. -/
theorem lines_cons {c : Char} (h : isBreak c = false) (t : Text) :
    lines (c :: t) = consFirst c (lines t) := by
  have hr : c ≠ '\r' := by
    rintro rfl
    cases h
  rw [lines.eq_3 _ _ fun _ hc => absurd hc hr, if_neg (Bool.eq_false_iff.1 h)]

/-- What stands in front of a line feed is a line. -/
theorem lines_append_cons {l : Text} (h : ∀ c ∈ l, isBreak c = false) (t : Text) :
    lines (l ++ '\n' :: t) = l :: lines t := by
  induction l with
  | nil => rfl
  | cons c l ih =>
    rw [List.forall_mem_cons] at h
    rw [List.cons_append, lines_cons h.1, ih h.2]
    rfl

theorem lines_of_forall_not {l : Text} (hn : l ≠ []) (h : ∀ c ∈ l, isBreak c = false) :
    lines l = [l] := by
  induction l with
  | nil => exact absurd rfl hn
  | cons c l ih =>
    rw [List.forall_mem_cons] at h
    rw [lines_cons h.1]
    cases l with
    | nil => rfl
    | cons d l =>
      rw [ih (List.cons_ne_nil d l) h.2]
      rfl

/-- Joined around line feeds, texts that are not empty are the lines of the
    result. -/
theorem lines_joined {ls : List Text} (h : ∀ l ∈ ls, l ≠ [] ∧ ∀ c ∈ l, isBreak c = false) :
    lines (joined ['\n'] ls) = ls := by
  induction ls with
  | nil => rfl
  | cons l ls ih =>
    obtain ⟨⟨hn, hl⟩, hls⟩ := List.forall_mem_cons.1 h
    cases ls with
    | nil =>
      rw [joined_singleton]
      exact lines_of_forall_not hn hl
    | cons m ls =>
      rw [joined_cons_cons, List.append_assoc, List.singleton_append, lines_append_cons hl, ih hls]

end TestGrid.Text
