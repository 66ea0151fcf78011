import Mathlib.Data.List.Perm.Basic
import TestGrid.Proofs.Fallible
import TestGrid.Rule.Matching

/-!
# Inclusion

What it means that rules include a version, apart from the order in which they
are tried. A rule may *want* a version, *bar* it or *fail* on it; rules include
a version if one of them wants it and none bars it (`Rule.Includes`).

Rules are tried one after the other, and the trying stops at the first rule
that bars the version or fails on it (`exists_first_stop`). So it is this rule,
if there is one, that decides:

* if no rule stops the trying, the outcome is what `Rule.Includes` says
  (`includes_of_not_stops`);
* a rule that bars makes it a no (`includes_of_first_bars`), and a rule that
  fails a fault (`includes_of_first_fails`).

The order of the rules thus matters for a version that one rule bars and
another one fails on, and for no other. Rules that fail are those with a bound,
on a version that has no key (`fails_iff`).
-/

namespace TestGrid.Rule

open Version Fallible

/-- The rule covers the version and is no exclusion. -/
def Wants (v : Text) (rule : Rule) : Prop := rule.covers v = .ok true ∧ rule.excluded = false

/-- The rule is an exclusion that covers the version. -/
def Bars (v : Text) (rule : Rule) : Prop := rule.covers v = .ok true ∧ rule.excluded = true

/-- The rule cannot be tried on the version. -/
def Fails (v : Text) (rule : Rule) : Prop := ∃ f, rule.covers v = .error f

/-- The rules include the version: one of them wants it, and none bars it. -/
def Includes (rules : List Rule) (v : Text) : Prop :=
  (∃ rule ∈ rules, rule.Wants v) ∧ ∀ rule ∈ rules, ¬rule.Bars v

/-! ## The trial of one rule -/

/-- A bound can be tried on a version if and only if the version has a key. -/
theorem exists_admits_eq_error_iff (b : Bound) (v : Text) :
    (∃ f, b.admits v = .error f) ↔ ∃ f, Key.ofText v = .error f := by
  simp [Bound.admits, bind_eq_error]

/-- The rules that fail on a version are those of an unknown form, and those
    with a bound if the version has no key. -/
theorem fails_iff {v : Text} {rule : Rule} :
    rule.Fails v ↔ match rule with
      | literal .. | wildcard .. => False
      | range _ | interval .. => ∃ f, Key.ofText (numericPart v) = .error f
      | unknown _ => True := by
  cases rule with
  | literal | wildcard | unknown => simp [Fails, covers]
  | range b =>
    rw [Fails, covers, ← exists_admits_eq_error_iff b]
    simp [mapError_eq_error]
  | interval b c =>
    have hb := exists_admits_eq_error_iff b (numericPart v)
    have hc := exists_admits_eq_error_iff c (numericPart v)
    rw [Fails, covers, ← hb]
    simp only [mapError_eq_error, bothAdmit, bind_eq_error]
    constructor
    · rintro ⟨_, f, hf | ⟨a, ha, hf⟩, _⟩
      · exact ⟨f, hf⟩
      · -- The second bound fails only where the first one would have failed.
        cases a with
        | false => cases hf
        | true => exact hb.2 (hc.1 ⟨f, hf⟩)
    · rintro ⟨f, hf⟩
      exact ⟨_, f, .inl hf, rfl⟩

/-- A rule of a known form fails on a version only for want of a key. -/
theorem exists_key_of_covers {v : Text} {rule : Rule} {m : MatchFault}
    (h : rule.covers v = .error m) (hk : ∀ shown, rule ≠ unknown shown) :
    ∃ cause, m = .version cause ∧ Key.ofText (numericPart v) = .error cause := by
  have hadmits {b : Bound} {w : Text} {cause : KeyFault} (h : b.admits w = .error cause) :
      Key.ofText w = .error cause := by
    rcases bind_eq_error.1 h with h | ⟨_, -, h⟩
    · exact h
    · cases h
  cases rule with
  | literal | wildcard => cases h
  | unknown shown => exact absurd rfl (hk shown)
  | range b =>
    obtain ⟨cause, hc, rfl⟩ := mapError_eq_error.1 h
    exact ⟨cause, rfl, hadmits hc⟩
  | interval b c =>
    obtain ⟨cause, hc, rfl⟩ := mapError_eq_error.1 h
    refine ⟨cause, rfl, ?_⟩
    rcases bind_eq_error.1 hc with hb | ⟨admitted, -, hb⟩
    · exact hadmits hb
    · cases admitted with
      | false => cases hb
      | true => exact hadmits hb

/-- What trying a rule on a version comes to. -/
theorem trial (v : Text) (rule : Rule) :
    rule.covers v = .ok false ∨ rule.Wants v ∨ rule.Bars v ∨ rule.Fails v := by
  rcases exists_ok_or_error (rule.covers v) with ⟨b, hb⟩ | hf
  · cases b with
    | false => exact .inl hb
    | true =>
      cases he : rule.excluded with
      | false => exact .inr (.inl ⟨hb, he⟩)
      | true => exact .inr (.inr (.inl ⟨hb, he⟩))
  · exact .inr (.inr (.inr hf))

/-! ## The trial of all rules -/

/-- Behind the rule no other one is tried: it bars the version, or it fails. -/
def Stops (v : Text) (rule : Rule) : Prop := rule.Bars v ∨ rule.Fails v

/-- Either no rule stops the trying, or there is a first one that does. -/
theorem exists_first_stop (rules : List Rule) (v : Text) :
    (∀ rule ∈ rules, ¬rule.Stops v) ∨ ∃ before rule behind,
      rules = before ++ rule :: behind ∧ rule.Stops v ∧ ∀ r ∈ before, ¬r.Stops v := by
  induction rules with
  | nil => exact .inl fun _ h => absurd h List.not_mem_nil
  | cons rule rules ih =>
    by_cases h : rule.Stops v
    · exact .inr ⟨[], rule, rules, rfl, h, fun _ h => absurd h List.not_mem_nil⟩
    · rcases ih with ih | ⟨before, r, behind, rfl, hr, hb⟩
      · exact .inl (List.forall_mem_cons.2 ⟨h, ih⟩)
      · exact .inr ⟨rule :: before, r, behind, rfl, hr, List.forall_mem_cons.2 ⟨h, hb⟩⟩

theorem includesFrom_of_bars {v : Text} {b : Bool} {rule : Rule} {rules : List Rule}
    (h : rule.Bars v) : includesFrom v b (rule :: rules) = .ok false := by
  rw [includesFrom, h.1, ok_bind, if_pos rfl, if_pos h.2]
  rfl

theorem includesFrom_of_fails {v : Text} {b : Bool} {rule : Rule} {rules : List Rule}
    {f : MatchFault} (h : rule.covers v = .error f) :
    includesFrom v b (rule :: rules) = .error f := by
  rw [includesFrom, h, error_bind]

/-- A rule that does not stop the trying can only add its wish. -/
theorem includesFrom_of_not_stops {v : Text} {rule : Rule} (h : ¬rule.Stops v) (b : Bool)
    (rules : List Rule) : ∃ b', (b' = true ↔ b = true ∨ rule.Wants v) ∧
      includesFrom v b (rule :: rules) = includesFrom v b' rules := by
  rcases trial v rule with hc | hw | hs | hs
  · refine ⟨b, ⟨.inl, fun h => h.elim id fun hw => ?_⟩, ?_⟩
    · rw [hw.1] at hc
      cases hc
    · rw [includesFrom, hc, ok_bind, if_neg (by simp)]
  · refine ⟨true, ⟨fun _ => .inr hw, fun _ => rfl⟩, ?_⟩
    rw [includesFrom, hw.1, ok_bind, if_pos rfl, if_neg (by simp [hw.2])]
  · exact absurd (.inl hs) h
  · exact absurd (.inr hs) h

/-- Rules that do not stop the trying are passed over, but for their wishes. -/
theorem includesFrom_append {v : Text} {before : List Rule} (h : ∀ rule ∈ before, ¬rule.Stops v)
    (b : Bool) (rules : List Rule) :
    ∃ b', (b' = true ↔ b = true ∨ ∃ rule ∈ before, rule.Wants v) ∧
      includesFrom v b (before ++ rules) = includesFrom v b' rules := by
  induction before generalizing b with
  | nil => exact ⟨b, by simp, rfl⟩
  | cons rule before ih =>
    rw [List.forall_mem_cons] at h
    obtain ⟨b₁, h₁, he₁⟩ := includesFrom_of_not_stops h.1 b (before ++ rules)
    obtain ⟨b₂, h₂, he₂⟩ := ih h.2 b₁
    refine ⟨b₂, ?_, by rw [List.cons_append, he₁, he₂]⟩
    rw [h₂, h₁, List.exists_mem_cons_iff, or_assoc]

/-- If no rule stops the trying, the outcome is as declared. -/
theorem includes_of_not_stops {rules : List Rule} {v : Text}
    (h : ∀ rule ∈ rules, ¬rule.Stops v) :
    ∃ b, includes rules v = .ok b ∧ (b = true ↔ Includes rules v) := by
  obtain ⟨b, hb, he⟩ := includesFrom_append h false []
  rw [List.append_nil] at he
  refine ⟨b, he, hb.trans ?_⟩
  simp only [Bool.false_eq_true, false_or]
  exact ⟨fun hw => ⟨hw, fun rule hr hs => h rule hr (.inl hs)⟩, fun hi => hi.1⟩

/-- A version is refused if the first rule to stop the trying bars it. -/
theorem includes_of_first_bars {before behind : List Rule} {rule : Rule} {v : Text}
    (h : ∀ r ∈ before, ¬r.Stops v) (hr : rule.Bars v) :
    includes (before ++ rule :: behind) v = .ok false := by
  obtain ⟨b, _, he⟩ := includesFrom_append h false (rule :: behind)
  rw [includes, he, includesFrom_of_bars hr]

/-- The trying fails if the first rule to stop it does. -/
theorem includes_of_first_fails {before behind : List Rule} {rule : Rule} {v : Text}
    {f : MatchFault} (h : ∀ r ∈ before, ¬r.Stops v) (hr : rule.covers v = .error f) :
    includes (before ++ rule :: behind) v = .error f := by
  obtain ⟨b, _, he⟩ := includesFrom_append h false (rule :: behind)
  rw [includes, he, includesFrom_of_fails hr]

/-- The trying has the fault of the first rule to stop it, if this one fails. -/
theorem includes_eq_error_iff {rules : List Rule} {v : Text} {m : MatchFault} :
    includes rules v = .error m ↔ ∃ before rule behind, rules = before ++ rule :: behind ∧
      (∀ r ∈ before, ¬r.Stops v) ∧ rule.covers v = .error m := by
  constructor
  · intro h
    rcases exists_first_stop rules v with hs | ⟨before, rule, behind, rfl, hr | ⟨f, hr⟩, hs⟩
    · obtain ⟨b, hb, -⟩ := includes_of_not_stops hs
      rw [hb] at h
      cases h
    · rw [includes_of_first_bars hs hr] at h
      cases h
    · rw [includes_of_first_fails hs hr] at h
      cases h
      exact ⟨before, rule, behind, rfl, hs, hr⟩
  · rintro ⟨before, rule, behind, rfl, hs, hr⟩
    exact includes_of_first_fails hs hr

/-- Rules fail on a version if and only if one of them fails on it and none in
    front of this one bars it. -/
theorem exists_includes_eq_error_iff {rules : List Rule} {v : Text} :
    (∃ f, includes rules v = .error f) ↔ ∃ before rule behind,
      rules = before ++ rule :: behind ∧ rule.Fails v ∧ ∀ r ∈ before, ¬r.Bars v := by
  constructor
  · rintro ⟨f, hf⟩
    rcases exists_first_stop rules v with h | ⟨before, rule, behind, rfl, hr | hr, hb⟩
    · obtain ⟨b, hb, _⟩ := includes_of_not_stops h
      rw [hb] at hf
      cases hf
    · rw [includes_of_first_bars hb hr] at hf
      cases hf
    · exact ⟨before, rule, behind, rfl, hr, fun r hr hs => hb r hr (.inl hs)⟩
  · rintro ⟨before, rule, behind, rfl, ⟨f, hf⟩, hb⟩
    -- The first rule to stop the trying is this one, or one in front of it that fails too.
    rcases exists_first_stop before v with h | ⟨before, r, between, rfl, hr | ⟨f', hr⟩, h⟩
    · exact ⟨f, includes_of_first_fails h hf⟩
    · exact absurd hr (hb r (List.mem_append_right _ List.mem_cons_self))
    · rw [List.append_assoc, List.cons_append]
      exact ⟨f', includes_of_first_fails h hr⟩

/-- If trying the rules has an outcome, it is the declared one. -/
theorem eq_true_iff_of_includes {rules : List Rule} {v : Text} {b : Bool}
    (h : includes rules v = .ok b) : b = true ↔ Includes rules v := by
  rcases exists_first_stop rules v with hs | ⟨before, rule, behind, rfl, hr | ⟨f, hr⟩, hs⟩
  · obtain ⟨b', hb', hi⟩ := includes_of_not_stops hs
    rw [h] at hb'
    cases hb'
    exact hi
  · rw [includes_of_first_bars hs hr] at h
    cases h
    have : ¬Includes (before ++ rule :: behind) v := fun hi =>
      hi.2 rule (List.mem_append_right _ List.mem_cons_self) hr
    simp [this]
  · rw [includes_of_first_fails hs hr] at h
    cases h

/-- Rules of which none fails on a version have an outcome. -/
theorem exists_includes_of_not_fails {rules : List Rule} {v : Text}
    (h : ∀ rule ∈ rules, ¬rule.Fails v) : ∃ b, includes rules v = .ok b := by
  rw [← not_error_iff, exists_includes_eq_error_iff]
  rintro ⟨before, rule, behind, rfl, hf, _⟩
  exact h rule (List.mem_append_right _ List.mem_cons_self) hf

end TestGrid.Rule
