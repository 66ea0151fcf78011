import TestGrid.Rule.Matching

/-!
# What wildcards cover

A wildcard covers a version if the version is the pieces of the wildcard with a
filling for each star between them (`Wildcard.Covers`). Whether it does is decided
from left to right, where each piece is taken at the first place at which it stands,
and no other place is ever tried (`Wildcard.covers`). The two agree (`covers_iff`):
if a piece is taken at a later place and the rest of the version is accounted for
from there, then what lies between the first place and the later one has no line
feed, and can go into the filling of the star behind the piece (`Behind.fill`). The
last piece has no star behind it; so it is not looked for from the left, but has to
stand at the end.
-/

namespace TestGrid

namespace Wildcard

/-- Pieces, a star in front of each, account for a text: it is made of them with a filling
    in front of each. -/
inductive Behind : List Text → Text → Prop where
  | nil : Behind [] []
  | cons {s p t : Text} {ps : List Text} : '\n' ∉ s → Behind ps t → Behind (p :: ps) (s ++ p ++ t)

/-- A filling in front goes into that of the first star. -/
theorem Behind.fill {u p t : Text} {ps : List Text} (h : Behind (p :: ps) t) (hu : '\n' ∉ u) :
    Behind (p :: ps) (u ++ t) := by
  cases h with
  | @cons s _ t _ hs ht =>
    have hus : '\n' ∉ u ++ s := fun hm => (List.mem_append.1 hm).elim hu hs
    have := ht.cons hus (p := p)
    rwa [List.append_assoc u s p, List.append_assoc u] at this

/-- A text ends in a piece behind a filling. -/
theorem endsIn_iff {p t : Text} : endsIn p t = true ↔ ∃ s, '\n' ∉ s ∧ s ++ p = t := by
  simp only [endsIn, Bool.and_eq_true, decide_eq_true_eq, List.all_eq_true, fills]
  constructor
  · rintro ⟨h, hs⟩
    exact ⟨_, fun hm => hs _ hm rfl, h⟩
  · rintro ⟨s, hs, rfl⟩
    have hlen : (s ++ p).length - p.length = s.length := by simp
    rw [hlen, List.take_left]
    exact ⟨rfl, fun c hc he => hs (he ▸ hc)⟩

theorem coversBehind_iff {ps : List Text} {t : Text} : coversBehind ps t = true ↔ Behind ps t := by
  fun_induction coversBehind ps t with
  | case1 t =>
    rw [List.isEmpty_iff]
    constructor
    · rintro rfl
      exact .nil
    · intro h
      cases h
      rfl
  | case2 p t =>
    rw [endsIn_iff]
    constructor
    · rintro ⟨s, hs, rfl⟩
      simpa using Behind.nil.cons hs (p := p)
    · intro h
      cases h with
      | cons hs ht =>
        cases ht
        exact ⟨_, hs, by simp⟩
  | case3 p ps t hps rest hrest ih =>
    rw [ih]
    constructor
    · intro h
      obtain ⟨s, rfl, hs⟩ := append_of_reach hrest
      exact .cons hs h
    · intro h
      cases h with
      | cons hs ht =>
        -- The piece is reached at its place or before; the rest goes to the next star.
        obtain ⟨u, hr, hu⟩ := reach_of_append hs
        obtain rfl := Option.some_inj.1 (hr.symm.trans hrest)
        cases ps with
        | nil => exact absurd rfl hps
        | cons q ps => exact ht.fill hu
  | case4 p ps t hps hrest =>
    refine ⟨fun h => (nomatch h), fun h => ?_⟩
    cases h with
    | cons hs _ =>
      obtain ⟨u, hr, -⟩ := reach_of_append hs
      rw [hr] at hrest
      cases hrest

theorem filled_cons_cons (p q s : Text) (ps fillings : List Text) :
    filled (p :: q :: ps) (s :: fillings) = p ++ s ++ filled (q :: ps) fillings := rfl

/-- The first piece stands at the start, and the others behind it. -/
theorem exists_filled_iff {p v : Text} {ps : List Text} :
    (∃ fillings, fillings.length + 1 = (p :: ps).length ∧ (∀ s ∈ fillings, '\n' ∉ s) ∧
      filled (p :: ps) fillings = v) ↔ ∃ t, p ++ t = v ∧ Behind ps t := by
  induction ps generalizing p v with
  | nil =>
    constructor
    · rintro ⟨fillings, -, -, rfl⟩
      exact ⟨[], List.append_nil p, .nil⟩
    · rintro ⟨t, rfl, h⟩
      cases h
      exact ⟨[], rfl, fun _ hs => absurd hs List.not_mem_nil, (List.append_nil p).symm⟩
  | cons q ps ih =>
    constructor
    · rintro ⟨fillings, hl, hf, rfl⟩
      cases fillings with
      | nil => cases hl
      | cons s fillings =>
        rw [List.forall_mem_cons] at hf
        obtain ⟨t, ht, hb⟩ := ih.1 ⟨fillings, Nat.succ.inj hl, hf.2, rfl⟩
        refine ⟨s ++ q ++ t, ?_, hb.cons hf.1⟩
        rw [filled_cons_cons, ← ht, List.append_assoc, List.append_assoc]
    · rintro ⟨_, rfl, h⟩
      cases h with
      | @cons s _ t _ hs hb =>
        obtain ⟨fillings, hl, hf, ht⟩ := ih.2 ⟨t, rfl, hb⟩
        refine ⟨s :: fillings, congrArg Nat.succ hl, List.forall_mem_cons.2 ⟨hs, hf⟩, ?_⟩
        rw [filled_cons_cons, ht, List.append_assoc, List.append_assoc]

/-- From left to right it is decided whether a wildcard covers a version. -/
theorem covers_iff {g v : Text} : covers g v = true ↔ Covers g v := by
  rw [covers, Covers]
  cases hg : g.pieces (· = '*') with
  | nil => exact absurd hg (Text.pieces_ne_nil _ g)
  | cons p ps =>
    rw [exists_filled_iff]
    dsimp only
    cases hv : follow p v with
    | none =>
      refine ⟨fun h => (nomatch h), ?_⟩
      rintro ⟨t, ht, -⟩
      rw [follow_eq_some_iff.2 ht] at hv
      cases hv
    | some rest =>
      rw [coversBehind_iff]
      constructor
      · exact fun h => ⟨rest, follow_eq_some_iff.1 hv, h⟩
      · rintro ⟨t, ht, h⟩
        rw [follow_eq_some_iff.2 ht] at hv
        exact Option.some_inj.1 hv ▸ h

instance (g v : Text) : Decidable (Covers g v) := decidable_of_iff _ covers_iff

end Wildcard

/-- The rule of a wildcard can be tried on every version, and it covers the version if and
    only if this is made of the pieces of the wildcard, in order and with nothing else, and of
    a text without line feeds for each star. -/
theorem Rule.wildcard_covers_iff (g v : Text) (excluded : Bool) :
    ∃ b, (Rule.wildcard g excluded).covers v = .ok b ∧ (b = true ↔ Wildcard.Covers g v) :=
  ⟨_, rfl, Wildcard.covers_iff⟩

/-- A star behind a minor version is filled with what is left of a patch release; no filling of
    it accounts for what stands in front of the minor version. -/
theorem Rule.star_covers_patches :
    Wildcard.filled ["2.7".toList, []] [".7".toList] = "2.7.7".toList ∧
      (Rule.wildcard "2.7*".toList false).covers "2.7.7".toList = .ok true ∧
      (∀ fillings, Wildcard.filled ["2.7".toList, []] fillings ≠ "12.7".toList) ∧
      (Rule.wildcard "2.7*".toList false).covers "12.7".toList = .ok false := by
  have hfilled : Wildcard.filled ["2.7".toList, []] [".7".toList] = "2.7.7".toList := rfl
  have hfront (fillings : List Text) :
      Wildcard.filled ["2.7".toList, []] fillings ≠ "12.7".toList := by
    intro h
    cases fillings with
    | nil => cases h
    | cons s fillings => cases h
  obtain ⟨b, hb, hcovers⟩ := Rule.wildcard_covers_iff "2.7*".toList "2.7.7".toList false
  obtain ⟨c, hc, hmisses⟩ := Rule.wildcard_covers_iff "2.7*".toList "12.7".toList false
  obtain rfl : b = true := hcovers.2 ⟨[".7".toList], rfl, by decide, hfilled⟩
  obtain rfl : c = false := by
    refine Bool.eq_false_iff.2 fun ht => ?_
    obtain ⟨fillings, -, -, h⟩ := hmisses.1 ht
    exact hfront fillings h
  exact ⟨hfilled, hb, hfront, hc⟩

/-- The last piece is taken at the end though it stands before it too, and nothing may stand
    behind it; no star is filled with a line feed. -/
example : Wildcard.Covers "1.*.1*.1".toList "1.1.1.1.1".toList ∧
    ¬Wildcard.Covers "1.*.1".toList "1.1.1.2".toList ∧
    ¬Wildcard.Covers "1.*".toList "1.\n".toList := by decide

end TestGrid
