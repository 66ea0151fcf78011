import TestGrid.Text.Basic

/-!
# Wildcards

In a wildcard a star stands for any characters of one line, also for none;
every other character stands for itself. A wildcard covers a version if it
accounts for all of its characters: the version is made of the pieces of the
wildcard between its stars, with a filling for each star.

* `Wildcard.Covers` says so;
* `Wildcard.covers` decides it from left to right. Each piece but the first and
  the last is taken where it first fits, and no other place is ever tried: what
  can be reached from a later place can be reached from the first one too
  (`reach_of_append`).
-/

namespace TestGrid.Wildcard

/-- Whether a character may stand in the filling of a star. -/
def fills (c : Char) : Bool := c ≠ '\n'

/-- What follows a piece in a text that starts with it. -/
def follow : Text → Text → Option Text
  | [], t => some t
  | _ :: _, [] => none
  | c :: p, d :: t => if c = d then follow p t else none

/-- What follows a piece at the first place where it stands behind a filling. -/
def reach (p : Text) : Text → Option Text
  | [] => follow p []
  | c :: r =>
    match follow p (c :: r) with
    | some rest => some rest
    | none => if fills c then reach p r else none

/-- Whether a text is a filling with a piece behind it. -/
def endsIn (p t : Text) : Bool :=
  let filling := t.take (t.length - p.length)
  filling ++ p = t && filling.all fills

/-- Whether pieces, a star in front of each, account for a text. -/
def coversBehind : List Text → Text → Bool
  | [], t => t.isEmpty
  | [p], t => endsIn p t
  | p :: ps, t =>
    match reach p t with
    | some rest => coversBehind ps rest
    | none => false

/-- Whether a wildcard covers a version. -/
def covers (g v : Text) : Bool :=
  match g.pieces (· = '*') with
  | [] => v.isEmpty
  | p :: ps =>
    match follow p v with
    | some rest => coversBehind ps rest
    | none => false

/-- The pieces of a wildcard with fillings between them. -/
def filled : List Text → List Text → Text
  | [], _ => []
  | [p], _ => p
  | p :: ps, [] => p ++ filled ps []
  | p :: ps, s :: fillings => p ++ s ++ filled ps fillings

/-- A version is covered if fillings without line feeds, one for each star,
    make it out of a wildcard. -/
def Covers (g v : Text) : Prop :=
  ∃ fillings : List Text, fillings.length + 1 = (g.pieces (· = '*')).length ∧
    (∀ s ∈ fillings, '\n' ∉ s) ∧ filled (g.pieces (· = '*')) fillings = v

/-! ### Laws of the places of a piece -/

/-- Something follows a piece if the text is the piece and what follows. -/
theorem follow_eq_some_iff {p t rest : Text} : follow p t = some rest ↔ p ++ rest = t := by
  induction p generalizing t with
  | nil => simp [follow, eq_comm]
  | cons c p ih =>
    cases t with
    | nil => simp [follow]
    | cons d t =>
      by_cases h : c = d
      · simp [follow, h, ih]
      · simp [follow, h]

/-- What is reached stands behind a filling and the piece. -/
theorem append_of_reach {p t rest : Text} (h : reach p t = some rest) :
    ∃ s, s ++ p ++ rest = t ∧ '\n' ∉ s := by
  induction t with
  | nil => exact ⟨[], follow_eq_some_iff.1 h, List.not_mem_nil⟩
  | cons c t ih =>
    rw [reach] at h
    split at h
    · next hp =>
      cases h
      exact ⟨[], follow_eq_some_iff.1 hp, List.not_mem_nil⟩
    · split at h
      · next hc =>
        obtain ⟨s, rfl, hs⟩ := ih h
        refine ⟨c :: s, by simp, fun hm => ?_⟩
        rcases List.mem_cons.1 hm with rfl | hm
        · simp [fills] at hc
        · exact hs hm
      · cases h

/-- Wherever the piece stands behind a filling, it is reached there or before,
    and what lies between is a filling. -/
theorem reach_of_append {p s rest : Text} (h : '\n' ∉ s) :
    ∃ u, reach p (s ++ p ++ rest) = some (u ++ rest) ∧ '\n' ∉ u := by
  induction s with
  | nil =>
    refine ⟨[], ?_, List.not_mem_nil⟩
    have hp : follow p (p ++ rest) = some rest := follow_eq_some_iff.2 rfl
    rw [List.nil_append, List.nil_append]
    cases ht : p ++ rest with
    | nil => rw [reach, ← ht, hp]
    | cons c t => rw [reach, ← ht, hp]
  | cons c s ih =>
    rw [List.mem_cons, not_or] at h
    rw [List.cons_append, List.cons_append, reach]
    split
    · next first hp =>
      -- The piece stands in front of the filling already. What follows it there is longer
      -- than `rest`, and has as many line feeds, for the filling has none.
      have he := follow_eq_some_iff.1 hp
      have hl : rest.length ≤ first.length := by
        have := congrArg List.length he
        simp only [List.length_append, List.length_cons] at this
        omega
      have hr : rest <:+ c :: (s ++ p ++ rest) := ⟨c :: (s ++ p), by simp⟩
      obtain ⟨u, rfl⟩ := List.suffix_of_suffix_length_le hr ⟨p, he⟩ hl
      refine ⟨u, rfl, fun hu => ?_⟩
      have hn := congrArg (List.count '\n') he
      have hs : List.count '\n' s = 0 := List.count_eq_zero.2 h.2
      have hc : List.count '\n' [c] = 0 := List.count_eq_zero.2 (by simpa using h.1)
      have hu : 0 < List.count '\n' u := List.count_pos_iff.2 hu
      rw [← List.singleton_append] at hn
      simp only [List.count_append] at hn
      omega
    · rw [if_pos (by simpa [fills] using Ne.symm h.1)]
      exact ih h.2

end TestGrid.Wildcard
