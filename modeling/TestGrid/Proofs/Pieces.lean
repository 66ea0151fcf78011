import Mathlib.Data.List.Infix
import Mathlib.Data.List.TakeWhile
import TestGrid.Text.Lines

/-!
# The characters of pieces

Splitting a text loses no character but the separators: a piece has only
characters of the text (`mem_of_mem_pieces`), and every other character is in
some piece (`exists_mem_pieces`). Trimming leaves nothing if and only if there
is nothing but blanks (`trim_eq_nil_iff`), so a blank text has blank pieces. A
separator parts the pieces in front of it from those behind (`pieces_append_cons`),
and without one the last piece in front goes on with the first one behind
(`exists_pieces_append`).

What trimming leaves is *trimmed*, it has a blank at neither end
(`trimmed_trim`), and trimming a trimmed text changes nothing
(`Trimmed.trim_eq`). The pieces of a text change by their margins only if it is
trimmed (`map_trim_pieces_trim`).

The characters of a piece stand next to each other in the text
(`infix_of_mem_pieces`); so do those of a line (`infix_of_mem_lines`), and what
trimming leaves (`trim_infix`) and what is behind a separator (`infix_of_cut`).
-/

namespace TestGrid.Text

theorem mem_consFirst {c : Char} {ps : List Text} {p : Text} (h : p ∈ consFirst c ps) :
    (∃ q, (q = [] ∨ q ∈ ps) ∧ p = c :: q) ∨ p ∈ ps := by
  cases ps with
  | nil => exact .inl ⟨[], .inl rfl, List.mem_singleton.1 h⟩
  | cons q ps =>
    rcases List.mem_cons.1 h with rfl | h
    · exact .inl ⟨q, .inr List.mem_cons_self, rfl⟩
    · exact .inr (List.mem_cons_of_mem q h)

theorem consFirst_append (c : Char) {ps : List Text} (h : ps ≠ []) (qs : List Text) :
    consFirst c (ps ++ qs) = consFirst c ps ++ qs := by
  cases ps with
  | nil => exact absurd rfl h
  | cons p ps => rfl

/-- A piece has only characters of the text. -/
theorem mem_of_mem_pieces {sep : Char → Bool} {t p : Text} {x : Char} (hp : p ∈ pieces sep t)
    (hx : x ∈ p) : x ∈ t := by
  induction t generalizing p with
  | nil =>
    rw [pieces_nil, List.mem_singleton] at hp
    exact hp ▸ hx
  | cons c r ih =>
    rw [pieces] at hp
    split at hp
    · rcases List.mem_cons.1 hp with rfl | hp
      · exact absurd hx List.not_mem_nil
      · exact List.mem_cons_of_mem c (ih hp hx)
    · rcases mem_consFirst hp with ⟨q, hq, rfl⟩ | hp
      · -- The piece was begun by the character in front.
        rcases List.mem_cons.1 hx with rfl | hx
        · exact List.mem_cons_self
        · rcases hq with rfl | hq
          · exact absurd hx List.not_mem_nil
          · exact List.mem_cons_of_mem c (ih hq hx)
      · exact List.mem_cons_of_mem c (ih hp hx)

/-- A piece has no separator. -/
theorem sep_of_mem_pieces {sep : Char → Bool} {t p : Text} {x : Char} (hp : p ∈ pieces sep t)
    (hx : x ∈ p) : sep x = false := by
  induction t generalizing p with
  | nil =>
    rw [pieces_nil, List.mem_singleton] at hp
    exact absurd (hp ▸ hx) List.not_mem_nil
  | cons c r ih =>
    rw [pieces] at hp
    split at hp
    · rcases List.mem_cons.1 hp with rfl | hp
      · exact absurd hx List.not_mem_nil
      · exact ih hp hx
    · next hc =>
      rcases mem_consFirst hp with ⟨q, hq, rfl⟩ | hp
      · rcases List.mem_cons.1 hx with rfl | hx
        · exact Bool.eq_false_iff.2 hc
        · rcases hq with rfl | hq
          · exact absurd hx List.not_mem_nil
          · exact ih hq hx
      · exact ih hp hx

/-- A character that is no separator is in some piece. -/
theorem exists_mem_pieces (sep : Char → Bool) {t : Text} {x : Char} (hx : x ∈ t)
    (hs : sep x = false) : ∃ p ∈ pieces sep t, x ∈ p := by
  induction t with
  | nil => exact absurd hx List.not_mem_nil
  | cons c r ih =>
    rw [pieces]
    split
    · next hc =>
      rcases List.mem_cons.1 hx with rfl | hx
      · exact absurd hc (Bool.eq_false_iff.1 hs)
      · obtain ⟨p, hp, hx⟩ := ih hx
        exact ⟨p, List.mem_cons_of_mem _ hp, hx⟩
    · cases hps : pieces sep r with
      | nil => exact absurd hps (pieces_ne_nil sep r)
      | cons q ps =>
        rcases List.mem_cons.1 hx with rfl | hx
        · exact ⟨x :: q, List.mem_cons_self, List.mem_cons_self⟩
        · obtain ⟨p, hp, hx⟩ := ih hx
          rw [hps] at hp
          rcases List.mem_cons.1 hp with rfl | hp
          · exact ⟨c :: p, List.mem_cons_self, List.mem_cons_of_mem c hx⟩
          · exact ⟨p, List.mem_cons_of_mem _ hp, hx⟩

/-- What is left of a text starts with something to keep. -/
theorem not_of_head?_dropWhile {p : Char → Bool} {t : Text} {c : Char}
    (h : (t.dropWhile p).head? = some c) : p c = false := by
  have := List.head?_dropWhile_not p t
  rwa [h] at this

/-- Trimming leaves nothing of a text if and only if it is blank. -/
theorem trim_eq_nil_iff {t : Text} : t.trim = [] ↔ ∀ c ∈ t, isBlank c = true := by
  rw [trim, trimEnd, List.reverse_eq_nil_iff, List.dropWhile_eq_nil_iff]
  simp only [List.mem_reverse, trimStart]
  constructor
  · intro h
    have hd : t.dropWhile isBlank = [] := by
      cases hd : t.dropWhile isBlank with
      | nil => rfl
      | cons c r =>
        -- What is dropped from ends in front of a character that is no blank.
        have hc : isBlank c = false := not_of_head?_dropWhile (t := t) (by rw [hd]; rfl)
        rw [hd] at h
        exact absurd (h c List.mem_cons_self) (Bool.eq_false_iff.1 hc)
    exact List.dropWhile_eq_nil_iff.1 hd
  · intro h c hc
    exact h c ((List.dropWhile_sublist isBlank).subset hc)

/-- The pieces of a blank text are blank. -/
theorem trim_of_mem_pieces {sep : Char → Bool} {t p : Text} (ht : t.trim = [])
    (hp : p ∈ pieces sep t) : p.trim = [] :=
  trim_eq_nil_iff.2 fun _ hc => trim_eq_nil_iff.1 ht _ (mem_of_mem_pieces hp hc)

/-- A text without separators is its only piece. -/
theorem pieces_of_forall_not {sep : Char → Bool} {t : Text} (h : ∀ c ∈ t, sep c = false) :
    pieces sep t = [t] := by
  induction t with
  | nil => rfl
  | cons c r ih =>
    rw [List.forall_mem_cons] at h
    rw [pieces, if_neg (Bool.eq_false_iff.1 h.1), ih h.2]
    rfl

/-- A separator parts the pieces in front of it from those behind it. -/
theorem pieces_append_cons {sep : Char → Bool} {c : Char} (hc : sep c = true) (a b : Text) :
    pieces sep (a ++ c :: b) = pieces sep a ++ pieces sep b := by
  induction a with
  | nil => exact if_pos hc
  | cons d a ih =>
    rw [List.cons_append, pieces, pieces, ih]
    split
    · rfl
    · exact consFirst_append d (pieces_ne_nil sep a) _

/-- The last piece of a text goes on with the first piece of what follows. -/
theorem exists_pieces_append (sep : Char → Bool) (a b : Text) : ∃ ps p q qs,
    pieces sep a = ps ++ [p] ∧ pieces sep b = q :: qs ∧
      pieces sep (a ++ b) = ps ++ (p ++ q) :: qs := by
  induction a with
  | nil =>
    cases hb : pieces sep b with
    | nil => exact absurd hb (pieces_ne_nil sep b)
    | cons q qs => exact ⟨[], [], q, qs, rfl, rfl, hb⟩
  | cons c a ih =>
    obtain ⟨ps, p, q, qs, ha, hb, hab⟩ := ih
    rw [List.cons_append, pieces, pieces, ha, hab]
    split
    · exact ⟨[] :: ps, p, q, qs, rfl, hb, rfl⟩
    · -- The character goes to the first piece, which may be the last one too.
      cases ps with
      | nil => exact ⟨[], c :: p, q, qs, rfl, hb, rfl⟩
      | cons p₀ ps => exact ⟨(c :: p₀) :: ps, p, q, qs, rfl, hb, rfl⟩

/-! ## Margins -/

/-- The text neither starts nor ends with a blank. -/
def Trimmed (t : Text) : Prop :=
  (∀ c, t.head? = some c → isBlank c = false) ∧ ∀ c, t.getLast? = some c → isBlank c = false

theorem trimmed_nil : Trimmed [] := by simp [Trimmed]

/-- Nothing is dropped from a text that starts with something to keep. -/
theorem dropWhile_of_head? {p : Char → Bool} {t : Text} (h : ∀ c, t.head? = some c → p c = false) :
    t.dropWhile p = t := by
  cases t with
  | nil => rfl
  | cons c r => rw [List.dropWhile_cons_of_neg (Bool.eq_false_iff.1 (h c rfl))]

/-- Trimming a trimmed text changes nothing. -/
theorem Trimmed.trim_eq {t : Text} (h : t.Trimmed) : t.trim = t := by
  have he : ∀ c, t.reverse.head? = some c → isBlank c = false := fun c hc =>
    h.2 c (by rwa [List.head?_reverse] at hc)
  rw [trim, trimStart, dropWhile_of_head? h.1, trimEnd, dropWhile_of_head? he, List.reverse_reverse]

/-- What trimming leaves begins the text without its first blanks. -/
theorem trim_prefix_trimStart (t : Text) : t.trim <+: t.trimStart := by
  rw [trim, trimEnd, ← List.reverse_suffix, List.reverse_reverse]
  exact List.dropWhile_suffix isBlank

/-- What trimming leaves is trimmed. -/
theorem trimmed_trim (t : Text) : t.trim.Trimmed := by
  constructor
  · intro c hc
    obtain ⟨r, hr⟩ := trim_prefix_trimStart t
    have hs : t.trimStart.head? = some c := by
      rw [← hr, List.head?_append, hc]
      rfl
    exact not_of_head?_dropWhile hs
  · intro c hc
    rw [trim, trimEnd, List.getLast?_reverse] at hc
    exact not_of_head?_dropWhile hc

/-- A text that starts with something to keep is not empty without its margins,
    and starts with the same. -/
theorem head?_trim {t : Text} (h : ∀ c, t.head? = some c → isBlank c = false) :
    t.trim.head? = t.head? := by
  cases t with
  | nil => rfl
  | cons c r =>
    have hn : trim (c :: r) ≠ [] := fun he =>
      Bool.eq_false_iff.1 (h c rfl) (trim_eq_nil_iff.1 he c List.mem_cons_self)
    obtain ⟨s, hs⟩ := trim_prefix_trimStart (c :: r)
    rw [trimStart, dropWhile_of_head? h] at hs
    rw [← List.head?_append_of_ne_nil _ hn, hs]

/-- A text without blanks is trimmed. -/
theorem trimmed_of_forall_not {t : Text} (h : ∀ c ∈ t, isBlank c = false) : t.Trimmed :=
  ⟨fun c hc => h c (List.mem_of_mem_head? hc), fun c hc => h c (List.mem_of_getLast? hc)⟩

/-- Blanks in front do not count. -/
theorem trim_append_of_blank {m : Text} (h : ∀ c ∈ m, isBlank c = true) (t : Text) :
    trim (m ++ t) = trim t := by
  rw [trim, trimStart, List.dropWhile_append_of_pos h]
  rfl

/-- Nor do blanks behind. -/
theorem trim_append_blank (t : Text) {m : Text} (h : ∀ c ∈ m, isBlank c = true) :
    trim (t ++ m) = trim t := by
  have hend (s : Text) : trimEnd (s ++ m) = trimEnd s := by
    rw [trimEnd, List.reverse_append,
      List.dropWhile_append_of_pos fun c hc => h c (List.mem_reverse.1 hc)]
    rfl
  rw [trim, trim, trimStart, List.dropWhile_append]
  split
  · next ht => rw [trimStart, List.isEmpty_iff.1 ht, List.dropWhile_eq_nil_iff.2 h]
  · exact hend _

/-- Dropping from the start ends at the latest in front of a character to keep. -/
theorem dropWhile_append_cons {p : Char → Bool} {c : Char} (h : p c = false) (a b : Text) :
    (a ++ c :: b).dropWhile p = a.dropWhile p ++ c :: b := by
  rw [List.dropWhile_append, List.dropWhile_cons_of_neg (Bool.eq_false_iff.1 h)]
  split
  · next ha => rw [List.isEmpty_iff.1 ha, List.nil_append]
  · rfl

/-- What trimming takes off the end is blank. -/
theorem exists_trimEnd_append (t : Text) :
    ∃ m : Text, (∀ c ∈ m, isBlank c = true) ∧ t = t.trimEnd ++ m := by
  refine ⟨(t.reverse.takeWhile isBlank).reverse, fun c hc => ?_, ?_⟩
  · exact List.mem_takeWhile_imp (List.mem_reverse.1 hc)
  · rw [trimEnd, ← List.reverse_append, List.takeWhile_append_dropWhile, List.reverse_reverse]

/-- The margins that trimming takes off are blank. -/
theorem exists_append_trim_append (t : Text) : ∃ m m' : Text, (∀ c ∈ m, isBlank c = true) ∧
    (∀ c ∈ m', isBlank c = true) ∧ t = m ++ t.trim ++ m' := by
  obtain ⟨m', hm', ht⟩ := exists_trimEnd_append (trimStart t)
  refine ⟨t.takeWhile isBlank, m', fun c hc => List.mem_takeWhile_imp hc, hm', ?_⟩
  rw [trim, List.append_assoc, ← ht, trimStart, List.takeWhile_append_dropWhile]

/-- Trimming goes on where one end is trimmed already. -/
theorem trim_trimStart (t : Text) : trim (trimStart t) = trim t := by
  conv_rhs => rw [← List.takeWhile_append_dropWhile (p := isBlank) (l := t)]
  rw [trim_append_of_blank fun c hc => List.mem_takeWhile_imp hc, trimStart]

theorem trim_trimEnd (t : Text) : trim (trimEnd t) = trim t := by
  obtain ⟨m, hm, ht⟩ := exists_trimEnd_append t
  conv_rhs => rw [ht]
  exact (trim_append_blank _ hm).symm

/-- A character that is no blank parts the margin in front from the one behind. -/
theorem trim_append_cons {c : Char} (h : isBlank c = false) (a b : Text) :
    trim (a ++ c :: b) = trimStart a ++ c :: trimEnd b := by
  have hend (t : Text) : trimEnd (t ++ c :: b) = t ++ c :: trimEnd b := by
    rw [trimEnd, trimEnd, List.reverse_append, List.reverse_cons, List.append_assoc,
      List.singleton_append, dropWhile_append_cons h, List.reverse_append, List.reverse_cons,
      List.reverse_reverse, List.append_assoc, List.singleton_append]
  rw [trim, trimStart, dropWhile_append_cons h, hend]
  rfl

/-- It keeps what is around it, apart from the blanks at the ends of the text. -/
theorem exists_trim_append_cons {c : Char} (h : isBlank c = false) (a b : Text) :
    ∃ m r : Text, (∀ x ∈ m, isBlank x = true) ∧ trim (a ++ c :: b) = trim a ++ (m ++ c :: r) := by
  obtain ⟨m, hm, ha⟩ := exists_trimEnd_append (trimStart a)
  refine ⟨m, trimEnd b, hm, ?_⟩
  rw [trim_append_cons h, ← List.append_assoc, trim, ← ha]

/-- Trimming a text changes its pieces by their margins only. -/
theorem map_trim_pieces_trim {sep : Char → Bool} (h : ∀ c, isBlank c = true → sep c = false)
    (t : Text) : (t.trim.pieces sep).map trim = (t.pieces sep).map trim := by
  obtain ⟨m, m', hm, hm', ht⟩ := exists_append_trim_append t
  obtain ⟨ps, p, q, qs, hp, hq, hpq⟩ := exists_pieces_append sep (m ++ t.trim) m'
  obtain ⟨ps', p', q', qs', hp', hq', hpq'⟩ := exists_pieces_append sep m t.trim
  -- Each margin is one piece, which the text goes on with, or which goes on with it.
  rw [pieces_of_forall_not fun c hc => h c (hm' c hc)] at hq
  rw [pieces_of_forall_not fun c hc => h c (hm c hc)] at hp'
  cases hq
  obtain ⟨rfl, hp'⟩ := List.append_inj' (show [] ++ [m] = ps' ++ [p'] from hp') rfl
  cases hp'
  conv_rhs => rw [ht, hpq, List.map_append, List.map_singleton, trim_append_blank p hm',
    ← List.map_singleton, ← List.map_append, ← hp, hpq', List.nil_append, List.map_cons,
    trim_append_of_blank hm q', ← List.map_cons, ← hq']

theorem Trimmed.append {a b : Text} (ha : a.Trimmed) (hb : b.Trimmed) : (a ++ b).Trimmed := by
  constructor
  · intro c hc
    rw [List.head?_append, Option.or_eq_some_iff] at hc
    exact hc.elim (ha.1 c) fun h => hb.1 c h.2
  · intro c hc
    rw [List.getLast?_append, Option.or_eq_some_iff] at hc
    exact hc.elim (hb.2 c) fun h => ha.2 c h.2

/-- A trimmed text stays so with another character in it that is no blank. -/
theorem Trimmed.insert {a b : Text} (h : (a ++ b).Trimmed) {c : Char} (hc : isBlank c = false) :
    (a ++ c :: b).Trimmed := by
  constructor
  · cases a with
    | nil => exact fun d hd => Option.some.inj hd ▸ hc
    | cons d a => exact h.1
  · cases b with
    | nil =>
      intro d hd
      rw [List.getLast?_append_of_ne_nil _ (List.cons_ne_nil _ _)] at hd
      exact Option.some.inj hd ▸ hc
    | cons d b =>
      rw [List.getLast?_append_of_ne_nil _ (List.cons_ne_nil _ _), List.getLast?_cons_cons,
        ← List.getLast?_append_of_ne_nil a (List.cons_ne_nil _ _)]
      exact h.2

/-- What stands between two trimmed texts may have any margins. -/
theorem Trimmed.around {a b : Text} (ha : a.Trimmed) (hb : b.Trimmed) (hna : a ≠ []) (hnb : b ≠ [])
    (m : Text) : (a ++ m ++ b).Trimmed := by
  constructor
  · intro c hc
    rw [List.append_assoc, List.head?_append_of_ne_nil _ hna] at hc
    exact ha.1 c hc
  · intro c hc
    rw [List.getLast?_append_of_ne_nil _ hnb] at hc
    exact hb.2 c hc

theorem trim_of_forall_not {t : Text} (h : ∀ c ∈ t, isBlank c = false) : t.trim = t :=
  (trimmed_of_forall_not h).trim_eq

/-! ## Parts of a text -/

/-- All of the parts stand in the text, and the first one at its beginning. -/
def PartsOf (t : Text) (ps : List Text) : Prop :=
  (∀ p, ps.head? = some p → p <+: t) ∧ ∀ p ∈ ps, p <:+: t

/-- The parts of what follows may have an empty one in front. -/
theorem PartsOf.behindEmpty {t r : Text} {ps : List Text} (h : PartsOf r ps) (hr : r <:+ t) :
    PartsOf t ([] :: ps) := by
  refine ⟨fun p hp => ?_, fun p hp => ?_⟩
  · cases hp
    exact List.nil_prefix
  · rcases List.mem_cons.1 hp with rfl | hp
    · exact List.nil_infix
    · exact (h.2 p hp).trans hr.isInfix

/-- A character in front goes to the first part. -/
theorem PartsOf.consFirst {r : Text} {ps : List Text} (h : PartsOf r ps) (c : Char) :
    PartsOf (c :: r) (consFirst c ps) := by
  cases ps with
  | nil =>
    have hc : [c] <+: c :: r := List.prefix_cons_inj c |>.2 List.nil_prefix
    refine ⟨fun p hp => ?_, List.forall_mem_singleton.2 hc.isInfix⟩
    cases hp
    exact hc
  | cons q ps =>
    have hq : c :: q <+: c :: r := (List.prefix_cons_inj c).2 (h.1 q rfl)
    refine ⟨fun p hp => ?_, List.forall_mem_cons.2 ⟨hq.isInfix, fun p hp => ?_⟩⟩
    · cases hp
      exact hq
    · exact (h.2 p (List.mem_cons_of_mem _ hp)).trans (List.suffix_cons c r).isInfix

theorem partsOf_pieces (sep : Char → Bool) (t : Text) : PartsOf t (pieces sep t) := by
  induction t with
  | nil =>
    refine ⟨fun p hp => ?_, List.forall_mem_singleton.2 List.nil_infix⟩
    cases hp
    exact List.nil_prefix
  | cons c r ih =>
    rw [pieces]
    split
    · exact ih.behindEmpty (List.suffix_cons c r)
    · exact ih.consFirst c

theorem partsOf_lines (t : Text) : PartsOf t (lines t) := by
  fun_induction lines t with
  | case1 => exact ⟨fun p hp => (nomatch hp), fun p hp => absurd hp List.not_mem_nil⟩
  | case2 r ih => exact ih.behindEmpty ((List.suffix_cons _ r).trans (List.suffix_cons _ _))
  | case3 c r _ _ ih => exact ih.behindEmpty (List.suffix_cons c r)
  | case4 c r _ _ ih => exact ih.consFirst c

/-- A piece stands in the text. -/
theorem infix_of_mem_pieces {sep : Char → Bool} {t p : Text} (h : p ∈ pieces sep t) : p <:+: t :=
  (partsOf_pieces sep t).2 p h

/-- A line stands in the text. -/
theorem infix_of_mem_lines {t p : Text} (h : p ∈ lines t) : p <:+: t := (partsOf_lines t).2 p h

/-- A text that is cut at its first separator has only one such splitting. -/
theorem exists_splitting_iff {sep : Char} {t a b : Text} (h : t.cut sep = some (a, b))
    {p : Text → Text → Prop} :
    (∃ a b, t = a ++ sep :: b ∧ sep ∉ a ∧ p a b) ↔ p a b := by
  constructor
  · rintro ⟨a', b', ht, hn, hp⟩
    rw [cut_eq_some_iff.2 ⟨ht, hn⟩] at h
    cases h
    exact hp
  · obtain ⟨ht, hn⟩ := cut_eq_some_iff.1 h
    exact fun hp => ⟨a, b, ht, hn, hp⟩

/-- What is behind a separator stands in the text. -/
theorem infix_of_cut {sep : Char} {t a b : Text} (h : t.cut sep = some (a, b)) : b <:+: t := by
  obtain ⟨rfl, -⟩ := cut_eq_some_iff.1 h
  exact ((List.suffix_cons _ _).trans (List.suffix_append _ _)).isInfix

/-- What trimming leaves stands in the text. -/
theorem trim_infix (t : Text) : t.trim <:+: t :=
  (trim_prefix_trimStart t).isInfix.trans (List.dropWhile_suffix isBlank).isInfix

end TestGrid.Text
