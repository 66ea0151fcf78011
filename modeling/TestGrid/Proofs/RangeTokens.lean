import TestGrid.Proofs.RuleBook
import TestGrid.Proofs.WrittenRules
import TestGrid.Rule.Reading

/-!
# Ranges and their tokens

A range is read from its tokens, the limits and versions that are found in the
pattern from left to right (`RangeToken.Tokenized`). Every pattern has exactly one
list of tokens, which is what scanning it gives (`RangeToken.tokenized_iff`).

The tokens have to be a limit and a version, or this twice
(`Rule.range_read_from_tokens`). A version among tokens is never at fault, as it has
nothing but digits and dots: whatever the dots are, what is between them has a value
(`Rule.ofRange_ne_badVersion`).
-/

namespace TestGrid

open Version Fallible

namespace RangeToken

/-- The text has these tokens, from left to right. At each place stands a limit, which
    takes an equals sign behind it if there is one, or a version, which takes all digits
    and dots that follow, or else a character that is passed over. -/
inductive Tokenized : Text → List RangeToken → Prop
  | nil : Tokenized [] []
  | limit {l : Limit} {t : Text} {ts : List RangeToken}
      (longest : l.symbol.length = 1 → t.head? ≠ some '=') (behind : Tokenized t ts) :
      Tokenized (l.symbol ++ t) (limit l :: ts)
  | version {v t : Text} {ts : List RangeToken} (ne_nil : v ≠ [])
      (chars : ∀ c ∈ v, isVersionChar c = true) (longest : t.head?.any isVersionChar = false)
      (behind : Tokenized t ts) : Tokenized (v ++ t) (version v :: ts)
  | other {c : Char} {t : Text} {ts : List RangeToken} (sign : c ≠ '<' ∧ c ≠ '>')
      (char : isVersionChar c = false) (behind : Tokenized t ts) : Tokenized (c :: t) ts

/-- A version goes on with a digit or a dot in front of it. -/
theorem Tokenized.cons {c : Char} (hc : isVersionChar c = true) {r : Text} {ts : List RangeToken}
    (h : Tokenized r ts) (hr : r.head?.any isVersionChar = true) :
    Tokenized (c :: r) (consVersion c ts) := by
  cases h with
  | nil => cases hr
  | @limit l t ts longest behind => cases l <;> cases hr
  | @version v t ts ne_nil chars longest behind =>
    exact .version (v := c :: v) (List.cons_ne_nil c v) (List.forall_mem_cons.2 ⟨hc, chars⟩)
      longest behind
  | @other d t ts sign char behind =>
    exact absurd (char.symm.trans hr) Bool.false_ne_true

theorem tokenized_scan (t : Text) : Tokenized t (scan t) := by
  -- A sign without an equals sign behind it is met only when the text does not go on with one.
  fun_induction scan t with
  | case1 => exact .nil
  | case2 r ih => exact .limit (l := .atMost) (fun h => absurd h (by decide)) ih
  | case3 r ih => exact .limit (l := .atLeast) (fun h => absurd h (by decide)) ih
  | case4 r hr ih =>
    exact .limit (l := .below) (fun _ h => (List.head?_eq_some_iff.1 h).elim hr) ih
  | case5 r hr ih =>
    exact .limit (l := .above) (fun _ h => (List.head?_eq_some_iff.1 h).elim hr) ih
  | case6 c r _ _ _ _ hc hr ih => exact ih.cons hc hr
  | case7 c r _ _ _ _ hc hr ih =>
    exact .version (v := [c]) (List.cons_ne_nil c []) (List.forall_mem_singleton.2 hc)
      (Bool.eq_false_iff.2 hr) ih
  | case8 c r _ _ hl hg hc ih => exact .other ⟨hl, hg⟩ (Bool.eq_false_iff.2 hc) ih

theorem Tokenized.scan_eq {t : Text} {ts : List RangeToken} (h : Tokenized t ts) :
    scan t = ts := by
  induction h with
  | nil => rfl
  | @limit l t ts longest behind ih =>
    rw [← ih]
    cases l with
    | above => exact scan_symbol .above (longest rfl)
    | atLeast => rfl
    | below => exact scan_symbol .below (longest rfl)
    | atMost => rfl
  | version ne_nil chars longest behind ih => rw [scan_version ne_nil chars longest, ih]
  | @other c t ts sign char behind ih =>
    rw [scan.eq_6 c t (fun _ hc _ => sign.1 hc) (fun _ hc _ => sign.2 hc) sign.1 sign.2,
      if_neg (Bool.eq_false_iff.1 char), ih]

/-- A text has the tokens that scanning it gives, and no others. -/
theorem tokenized_iff {t : Text} {ts : List RangeToken} : Tokenized t ts ↔ scan t = ts :=
  ⟨Tokenized.scan_eq, fun h => h ▸ tokenized_scan t⟩

end RangeToken

namespace Rule

/-- Tokens of bounds tell the bounds. -/
theorem boundTokens_inj {pairs pairs' : List (Limit × Text)} :
    boundTokens pairs = boundTokens pairs' ↔ pairs = pairs' := by
  refine ⟨fun h => ?_, congrArg boundTokens⟩
  induction pairs generalizing pairs' with
  | nil =>
    cases pairs' with
    | nil => rfl
    | cons p' pairs' => cases h
  | cons p pairs ih =>
    cases pairs' with
    | nil => cases h
    | cons p' pairs' =>
      have h : RangeToken.limit p.1 :: .version p.2 :: boundTokens pairs =
          .limit p'.1 :: .version p'.2 :: boundTokens pairs' := h
      simp only [List.cons.injEq, RangeToken.limit.injEq, RangeToken.version.injEq] at h
      obtain ⟨hl, hv, h⟩ := h
      rw [ih h, Prod.ext hl hv]

/-! ## Versions among tokens -/

/-- Digits and dots are a version, so no bound is at fault. -/
theorem readBounds_ne_badVersion {pattern : Text} {n : Nat} {ts : List RangeToken}
    (h : ∀ v, .version v ∈ ts → ∀ c ∈ v, RangeToken.isVersionChar c = true)
    (p segment version : Text) :
    readBounds pattern n ts ≠ .error (.badVersion p segment version) := by
  fun_induction readBounds pattern n ts with
  | case1 | case2 | case3 | case4 | case5 =>
    intro he
    cases he
  | case6 n l v ts ih =>
    -- Only here a version is read. It is one of digits and dots, so it can only be too long.
    intro he
    rcases bind_eq_error.1 he with he | ⟨b, -, he⟩
    · have hv := h v (List.mem_cons_of_mem _ List.mem_cons_self)
      rcases @boundOf_of_digits pattern l v hv with ⟨b, hb⟩ | ⟨m, hb, -⟩
      · rw [hb] at he
        cases he
      · rw [hb] at he
        cases he
    · rcases bind_eq_error.1 he with he | ⟨_, -, he⟩
      · exact ih (fun v hv => h v (List.mem_cons_of_mem _ (List.mem_cons_of_mem _ hv))) he
      · cases he

/-- No version in a range is at fault. -/
theorem ofRange_ne_badVersion (pattern p segment version : Text) :
    ofRange pattern ≠ .error (.badVersion p segment version) := by
  intro h
  rcases bind_eq_error.1 h with h | ⟨bs, -, h⟩
  · have hv := fun v hv => ((RangeToken.standIn_scan pattern).versions v hv).2
    exact readBounds_ne_badVersion hv p segment version h
  · split at h <;> cases h

/-! ## Ranges -/

section

variable {pattern : Text} (hc : pattern.Countable)

include hc

/-- One or two bounds are read from their tokens. -/
theorem exists_ofRange_of_pairs (pairs : List (Limit × Text))
    (hl : pairs.length = 1 ∨ pairs.length = 2)
    (hs : RangeToken.scan pattern = boundTokens pairs) :
    ∃ bs : List Bound, bs.map (fun b => (b.limit, b.version)) = pairs ∧
      ((∃ b, bs = [b] ∧ readRange pattern = .ok (range b)) ∨
        ∃ b c, bs = [b, c] ∧ readRange pattern = .ok (interval b c)) := by
  obtain ⟨rule, hr⟩ := ((judged_ofRange pattern).exists_ok_iff hc).2 ⟨pairs, hl, hs⟩
  obtain ⟨bs, hbs, hrule⟩ := bounds_of_ofRange hr
  refine ⟨bs, boundTokens_inj.1 (hbs.symm.trans hs), ?_⟩
  have hread : readRange pattern = .ok rule := mapError_eq_ok.2 hr
  rcases hrule with ⟨b, hb, rfl⟩ | ⟨b, c, hb, rfl⟩
  · exact .inl ⟨b, hb, hread⟩
  · exact .inr ⟨b, c, hb, hread⟩

/-- Of a pattern that is no range, the syntax is at fault. -/
theorem exists_badRule_of_not_isRange (h : ¬IsRange pattern) :
    ∃ cause, readRange pattern = .error (.badRule none cause) := by
  obtain ⟨cause, hr, hcause | ⟨n, -, hn, hrun⟩⟩ := (judged_ofRange pattern).exists_error h
  · exact ⟨cause, mapError_eq_error.2 ⟨cause, hr, RuleBook.ofSyntax_of_ne_tooLong hcause⟩⟩
  · exact absurd (hc n hrun) (Nat.not_le_of_lt hn)

/-- A pattern without a number that is too long has one list of tokens. If this is a limit
    and a version, or this twice, the pattern is read as the range or the interval with
    these limits, these versions and their keys. If it is any other, the syntax of the
    pattern is at fault, and never a version in it. -/
theorem range_read_from_tokens :
    ∃ ts, (∀ ts', RangeToken.Tokenized pattern ts' ↔ ts' = ts) ∧
      (∀ l v, ts = [.limit l, .version v] →
        ∃ b : Bound, (b.limit = l ∧ b.version = v ∧ Key.ofText v = .ok b.key) ∧
          readRange pattern = .ok (range b)) ∧
      (∀ l v l' v', ts = [.limit l, .version v, .limit l', .version v'] →
        ∃ b c : Bound, (b.limit = l ∧ b.version = v ∧ Key.ofText v = .ok b.key) ∧
          (c.limit = l' ∧ c.version = v' ∧ Key.ofText v' = .ok c.key) ∧
          readRange pattern = .ok (interval b c)) ∧
      ((∀ l v, ts ≠ [.limit l, .version v]) →
        (∀ l v l' v', ts ≠ [.limit l, .version v, .limit l', .version v']) →
        ∃ cause, readRange pattern = .error (.badRule none cause)) ∧
      ∀ p segment version, ofRange pattern ≠ .error (.badVersion p segment version) := by
  refine ⟨RangeToken.scan pattern, fun ts' => RangeToken.tokenized_iff.trans eq_comm, ?_, ?_, ?_,
    ofRange_ne_badVersion pattern⟩
  · intro l v hs
    obtain ⟨bs, hbs, ⟨b, rfl, hr⟩ | ⟨b, c, rfl, -⟩⟩ :=
      exists_ofRange_of_pairs hc [(l, v)] (.inl rfl) hs
    · cases hbs
      exact ⟨b, ⟨rfl, rfl, b.key_eq⟩, hr⟩
    · cases hbs
  · intro l v l' v' hs
    obtain ⟨bs, hbs, ⟨b, rfl, -⟩ | ⟨b, c, rfl, hr⟩⟩ :=
      exists_ofRange_of_pairs hc [(l, v), (l', v')] (.inr rfl) hs
    · cases hbs
    · cases hbs
      exact ⟨b, c, ⟨rfl, rfl, b.key_eq⟩, ⟨rfl, rfl, c.key_eq⟩, hr⟩
  · intro hone htwo
    refine exists_badRule_of_not_isRange hc ?_
    rintro ⟨pairs, hl, hs⟩
    match pairs with
    | [(l, v)] => exact hone l v hs
    | [(l, v), (l', v')] => exact htwo l v l' v' hs
    | [] | _ :: _ :: _ :: _ => simp at hl

end

/-- A version of nothing but dots has a key, that of zero. -/
theorem range_read_from_dots :
    Text.Countable ">=2..7 to <...".toList ∧
      RangeToken.Tokenized ">=2..7 to <...".toList
        [.limit .atLeast, .version "2..7".toList, .limit .below, .version "...".toList] ∧
      ∃ b c : Bound, b.key = ⟨2, 7, 0, 0⟩ ∧ c.key = ⟨0, 0, 0, 0⟩ ∧
        readRange ">=2..7 to <...".toList = .ok (interval b c) := by
  have hcount : Text.Countable ">=2..7 to <...".toList := Text.countable_of_length_le (by decide)
  have htokens : RangeToken.Tokenized ">=2..7 to <...".toList
      [.limit .atLeast, .version "2..7".toList, .limit .below, .version "...".toList] :=
    RangeToken.tokenized_iff.2 rfl
  obtain ⟨ts, hts, -, htwo, -⟩ := range_read_from_tokens hcount
  obtain ⟨b, c, ⟨-, -, hb⟩, ⟨-, -, hc⟩, hr⟩ := htwo _ _ _ _ ((hts _).1 htokens).symm
  exact ⟨hcount, htokens, b, c, (Except.ok.inj hb).symm, (Except.ok.inj hc).symm, hr⟩

end Rule

end TestGrid
