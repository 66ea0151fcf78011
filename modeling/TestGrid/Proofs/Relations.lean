import Mathlib.Data.Fin.Tuple.Basic
import Mathlib.Data.Fin.VecNotation
import Mathlib.Order.PiLex
import TestGrid.Proofs.Fallible
import TestGrid.Rule.Matching

/-!
# The order of versions

A key has a *rank*, its segments in the lexicographic order, the most significant
one first (`Key.rank`). To compare keys up to their first segment that differs is
to compare their ranks (`Key.order_eq_lt_iff`, `Key.order_eq_gt_iff`), and keys of
one rank are equal. So the relations, of which two look at the comparison, one at
equality, and two at both, are those of one linear order (`Relation.holds_iff`), and
whatever has a key stands in them as its key does:

* `Relation.Coherent`: the laws of five relations that are those of one linear order;
* `relations_coherent`: they hold of keys, and of versions that have a key; so of a
  strict limit and the opposite one at the same version, one admits a candidate and
  the other does not.
-/

namespace TestGrid.Version

open Fallible

/-! ## Ranks -/

namespace Key

/-- The four segments of a key. -/
def segment (k : Key) : Fin 4 → Int := ![k.major, k.minor, k.patch, k.build]

theorem segment_inj {a b : Key} : a.segment = b.segment ↔ a = b := by
  refine ⟨fun h => ?_, congrArg segment⟩
  cases a
  cases b
  have hi := congrFun h
  rw [Key.mk.injEq]
  exact ⟨hi 0, hi 1, hi 2, hi 3⟩

/-- The rank of a key among all keys. -/
def rank (k : Key) : Lex (Fin 4 → Int) := toLex k.segment

theorem rank_inj {a b : Key} : a.rank = b.rank ↔ a = b := toLex_inj.trans segment_inj

/-- Of two keys, the first segment that differs tells which one is ranked below. -/
theorem rank_lt_iff {a b : Key} : a.rank < b.rank ↔
    ∃ i, (∀ j < i, a.segment j = b.segment j) ∧ a.segment i < b.segment i := Iff.rfl

theorem order_eq_lt_iff {a b : Key} : a.order b = .lt ↔ a.rank < b.rank := by
  rw [rank_lt_iff, order]
  simp [segment, Fin.exists_fin_succ, Fin.forall_fin_succ, Ordering.then_eq_lt,
    Int.compare_eq_lt, and_or_left, and_assoc]

theorem swap_order (a b : Key) : (a.order b).swap = b.order a := by
  simp only [order, Ordering.swap_then, Int.compare_swap]

theorem order_eq_gt_iff {a b : Key} : a.order b = .gt ↔ b.rank < a.rank := by
  rw [← order_eq_lt_iff, ← swap_order a b, Ordering.swap_eq_lt]

end Key

namespace Relation

/-! ## Relations of a linear order -/

section

variable {α : Type*} [LinearOrder α]

/-- The relation in a linear order. -/
def Relates : Relation → α → α → Prop
  | after, x, y => y < x
  | notBefore, x, y => y ≤ x
  | before, x, y => x < y
  | notAfter, x, y => x ≤ y
  | equal, x, y => x = y

/-- One thing is after another one, or before it, or equal to it, and only one of
    these. -/
theorem existsUnique_relates (x y : α) :
    ∃! r : Relation, r ∈ [after, before, equal] ∧ r.Relates x y := by
  rcases lt_trichotomy x y with h | h | h
  · refine ⟨before, ⟨by decide, h⟩, fun r hr => ?_⟩
    cases r with
    | after => exact absurd hr.2 h.not_gt
    | before => rfl
    | equal => exact absurd hr.2 h.ne
    | notBefore | notAfter => exact absurd hr.1 (by decide)
  · refine ⟨equal, ⟨by decide, h⟩, fun r hr => ?_⟩
    cases r with
    | after => exact absurd hr.2 h.not_gt
    | before => exact absurd hr.2 h.not_lt
    | equal => rfl
    | notBefore | notAfter => exact absurd hr.1 (by decide)
  · refine ⟨after, ⟨by decide, h⟩, fun r hr => ?_⟩
    cases r with
    | after => rfl
    | before => exact absurd hr.2 h.not_gt
    | equal => exact absurd hr.2 h.ne'
    | notBefore | notAfter => exact absurd hr.1 (by decide)

theorem relates_trans {r : Relation} {x y z : α} (hxy : r.Relates x y) (hyz : r.Relates y z) :
    r.Relates x z := by
  cases r with
  | after => exact lt_trans hyz hxy
  | notBefore => exact le_trans hyz hxy
  | before => exact lt_trans hxy hyz
  | notAfter => exact le_trans hxy hyz
  | equal => exact Eq.trans hxy hyz

/-- The relation in which the bound stands to the candidate. -/
def mirrored : Relation → Relation
  | after => before
  | notBefore => notAfter
  | before => after
  | notAfter => notBefore
  | equal => equal

theorem relates_mirrored {r : Relation} {x y : α} : r.mirrored.Relates y x ↔ r.Relates x y := by
  cases r with
  | equal => exact eq_comm
  | _ => exact Iff.rfl

end

/-! ## Relations of keys -/

/-- The relations of keys are those of their ranks. -/
theorem holds_iff {r : Relation} {a b : Key} : r.holds a b = true ↔ r.Relates a.rank b.rank := by
  cases r with
  | after => exact decide_eq_true_iff.trans Key.order_eq_gt_iff
  | notBefore =>
    -- The comparison and the equality are two trials, which the rank joins.
    rw [holds, Bool.or_eq_true, decide_eq_true_iff, decide_eq_true_iff, Key.order_eq_gt_iff,
      @eq_comm _ a, ← Key.rank_inj]
    exact le_iff_lt_or_eq.symm
  | before => exact decide_eq_true_iff.trans Key.order_eq_lt_iff
  | notAfter =>
    rw [holds, Bool.or_eq_true, decide_eq_true_iff, decide_eq_true_iff, Key.order_eq_lt_iff,
      ← Key.rank_inj]
    exact le_iff_lt_or_eq.symm
  | equal => exact decide_eq_true_iff.trans Key.rank_inj.symm

/-- The relations, as they stand between things with keys, are those of one linear
    order, the lexicographic one of the segments. -/
structure Coherent {α : Type} (key : α → Key) (stands : Relation → α → α → Prop) : Prop where
  /-- Of two things, one is after the other, or before it, or equal to it, and only one
      of these. -/
  one_of_three : ∀ a b, ∃! r, r ∈ [after, before, equal] ∧ stands r a b
  notBefore_iff : ∀ a b, stands notBefore a b ↔ ¬stands before a b
  notAfter_iff : ∀ a b, stands notAfter a b ↔ ¬stands after a b
  mirrored_iff : ∀ r a b, stands r.mirrored b a ↔ stands r a b
  trans : ∀ r a b c, stands r a b → stands r b c → stands r a c
  equal_iff : ∀ a b, stands equal a b ↔ ∀ i, (key a).segment i = (key b).segment i
  /-- The first segment that differs decides. -/
  before_iff : ∀ a b, stands before a b ↔
    ∃ i, (∀ j < i, (key a).segment j = (key b).segment j) ∧ (key a).segment i < (key b).segment i

/-- What stands in the relations as its keys do is in one linear order. -/
theorem coherent_of_holds {α : Type} {key : α → Key} {stands : Relation → α → α → Prop}
    (h : ∀ r a b, stands r a b ↔ r.holds (key a) (key b) = true) : Coherent key stands := by
  simp only [holds_iff] at h
  constructor
  · intro a b
    simp only [h]
    exact existsUnique_relates _ _
  · intro a b
    rw [h, h]
    exact not_lt.symm
  · intro a b
    rw [h, h]
    exact not_lt.symm
  · intro r a b
    rw [h, h, relates_mirrored]
  · intro r a b c hab hbc
    rw [h] at hab hbc ⊢
    exact relates_trans hab hbc
  · intro a b
    rw [h, ← funext_iff, Key.segment_inj]
    exact Key.rank_inj
  · intro a b
    rw [h]
    exact Key.rank_lt_iff

end Relation

/-! ## Relations of versions -/

/-- A version whose numeric part has a key. -/
structure Keyed where
  text : Text
  key : Key
  key_eq : Key.ofText (numericPart text) = .ok key

/-- A version with its key, if it has one. -/
def Keyed.of (text : Text) : Except KeyFault Keyed :=
  match h : Key.ofText (numericPart text) with
  | .ok key => .ok ⟨text, key, h⟩
  | .error f => .error f

/-- Every version with a key comes from its text, and from no other one. -/
theorem Keyed.of_eq_ok_iff {text : Text} {v : Keyed} : of text = .ok v ↔ text = v.text := by
  rw [of]
  split
  · next key h =>
    rw [Except.ok.injEq]
    constructor
    · rintro rfl
      rfl
    · rintro rfl
      obtain rfl : key = v.key := Except.ok.inj (h.symm.trans v.key_eq)
      rfl
  · next f h =>
    refine ⟨fun hf => (nomatch hf), ?_⟩
    rintro rfl
    rw [v.key_eq] at h
    cases h

/-- Versions with keys are compared by them. -/
theorem Relation.compare_keyed (r : Relation) (u v : Keyed) :
    r.compare (.version u.text) (.version v.text) = .ok (r.holds u.key v.key) := by
  rw [compare, Operand.toKey, Operand.toKey, u.key_eq, ok_bind, v.key_eq]
  rfl

/-- A range covers a version with a key if its limit holds of the keys. -/
theorem covers_keyed (b : Bound) (v : Keyed) :
    (Rule.range b).covers v.text = .ok (b.limit.relation.holds v.key b.key) := by
  rw [Rule.covers, Bound.admits, v.key_eq]
  rfl

/-- The relations of keys are those of one linear order, so are the relations of
    versions with keys, all of which can be compared, and of the ranges with a strict
    limit and with the opposite one at the same version, exactly one covers such a
    version. -/
theorem relations_coherent :
    Relation.Coherent id (fun r a b => r.holds a b = true) ∧
    (∀ (r : Relation) (u v : Keyed), ∃ x,
      r.compare (.version u.text) (.version v.text) = .ok x) ∧
    Relation.Coherent Keyed.key
      (fun r u v => r.compare (.version u.text) (.version v.text) = .ok true) ∧
    ∀ (b : Bound) (v : Keyed),
      (∃ x, (Rule.range { b with limit := .below }).covers v.text = .ok x ∧
        (Rule.range { b with limit := .atLeast }).covers v.text = .ok !x) ∧
      ∃ x, (Rule.range { b with limit := .above }).covers v.text = .ok x ∧
        (Rule.range { b with limit := .atMost }).covers v.text = .ok !x := by
  have hkeys : Relation.Coherent id (fun r a b => r.holds a b = true) :=
    Relation.coherent_of_holds fun _ _ _ => Iff.rfl
  have hversions : Relation.Coherent Keyed.key
      (fun r u v => r.compare (.version u.text) (.version v.text) = .ok true) := by
    refine Relation.coherent_of_holds fun r u v => ?_
    rw [r.compare_keyed, Except.ok.injEq]
  have hnot {x y : Bool} (h : x = true ↔ ¬y = true) : x = !y := by
    rw [Bool.eq_iff_iff, h, Bool.not_eq_true', Bool.not_eq_true]
  refine ⟨hkeys, fun r u v => ⟨_, r.compare_keyed u v⟩, hversions, fun b v => ⟨?_, ?_⟩⟩
  · have hb : Relation.notBefore.holds v.key b.key = !Relation.before.holds v.key b.key :=
      hnot (hkeys.notBefore_iff _ _)
    exact ⟨_, covers_keyed _ v, (covers_keyed _ v).trans (congrArg Except.ok hb)⟩
  · have hb : Relation.notAfter.holds v.key b.key = !Relation.after.holds v.key b.key :=
      hnot (hkeys.notAfter_iff _ _)
    exact ⟨_, covers_keyed _ v, (covers_keyed _ v).trans (congrArg Except.ok hb)⟩

/-- A snapshot of a patch release is after the minor version, which is before it, and not
    the other way around; and it is not below the release, so it is covered by the rest. -/
theorem snapshot_after_minor :
    ∃ snapshot minor patch, Keyed.of "2.7.8-SNAPSHOT".toList = .ok snapshot ∧
      Keyed.of "2.7".toList = .ok minor ∧ Bound.of .below "2.7.8".toList = .ok patch ∧
      Relation.after.compare (.version snapshot.text) (.version minor.text) = .ok true ∧
      Relation.before.compare (.version minor.text) (.version snapshot.text) = .ok true ∧
      Relation.before.compare (.version snapshot.text) (.version minor.text) = .ok false ∧
      (Rule.range patch).covers snapshot.text = .ok false ∧
      (Rule.range { patch with limit := .atLeast }).covers snapshot.text = .ok true := by
  let snapshot : Keyed := ⟨"2.7.8-SNAPSHOT".toList, ⟨2, 7, 8, 0⟩, rfl⟩
  let minor : Keyed := ⟨"2.7".toList, ⟨2, 7, 0, 0⟩, rfl⟩
  let patch : Bound := ⟨.below, "2.7.8".toList, ⟨2, 7, 8, 0⟩, rfl⟩
  obtain ⟨-, hcompared, hversions, hrules⟩ := relations_coherent
  have hbefore : Relation.before.compare (.version minor.text) (.version snapshot.text) =
      .ok true := (hversions.before_iff minor snapshot).2 ⟨2, by decide, by decide⟩
  have hafter : Relation.after.compare (.version snapshot.text) (.version minor.text) =
      .ok true := (hversions.mirrored_iff .after snapshot minor).1 hbefore
  have hnot : Relation.before.compare (.version snapshot.text) (.version minor.text) ≠
      .ok true := by
    intro h
    obtain ⟨r, -, hr⟩ := hversions.one_of_three snapshot minor
    cases (hr .before ⟨by decide, h⟩).trans (hr .after ⟨by decide, hafter⟩).symm
  obtain ⟨x, hx⟩ := hcompared .before snapshot minor
  obtain rfl : x = false := Bool.eq_false_iff.2 fun ht => hnot (ht ▸ hx)
  obtain ⟨⟨y, hy, hrest⟩, -⟩ := hrules patch snapshot
  obtain rfl : y = false := Except.ok.inj (hy.symm.trans (covers_keyed patch snapshot))
  exact ⟨snapshot, minor, patch, Keyed.of_eq_ok_iff.2 rfl, Keyed.of_eq_ok_iff.2 rfl, rfl, hafter,
    hbefore, hx, hy, hrest⟩

end TestGrid.Version
