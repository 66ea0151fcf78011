import TestGrid.Proofs.Joined
import TestGrid.Proofs.Ranges

/-!
# Rules as they are written

A rule is *legible* if its text is of the form that a bare pattern has: a range,
or a version without margins, which starts with no sign of another form unless it
is excluded (`Rule.Legible`). These are the rules that patterns state
(`Rule.legible_of_ofPattern`), and such a rule is read back from its text
(`Rule.ofPattern_toText`), unless this starts with a quote, which would be taken
off.

The text has no characters that the pattern has not, apart from the space between
two bounds (`Rule.mem_of_ofPattern`).
-/

namespace TestGrid

open Version Fallible

/-! ## Bounds -/

/-- The version of the bound consists of digits and dots, of at least one. -/
def Bound.Legible (b : Bound) : Prop :=
  b.version ≠ [] ∧ ∀ c ∈ b.version, RangeToken.isVersionChar c = true

/-- A bound is the one that its limit and its version set. -/
theorem Bound.of_eq (b : Bound) : Bound.of b.limit b.version = .ok b := by
  rw [Bound.of]
  split
  · next key h =>
    obtain rfl : key = b.key := Except.ok.inj (h.symm.trans b.key_eq)
    rfl
  · next f h =>
    rw [b.key_eq] at h
    cases h

namespace RangeToken

/-- A limit is a token, unless an equals sign goes on with it. -/
theorem scan_symbol (l : Limit) {t : Text} (h : t.head? ≠ some '=') :
    scan (l.symbol ++ t) = limit l :: scan t := by
  have hn : ∀ r, t = '=' :: r → False := fun r hr => h (hr ▸ rfl)
  cases l with
  | above => exact scan.eq_5 _ hn
  | atLeast => rfl
  | below => exact scan.eq_4 _ hn
  | atMost => rfl

/-- A digit or a dot is a version, or the beginning of one. -/
theorem scan_cons {c : Char} (h : isVersionChar c = true) (r : Text) :
    scan (c :: r) =
      if r.head?.any isVersionChar then consVersion c (scan r) else version [c] :: scan r := by
  have hl : c ≠ '<' := fun hc => by
    subst hc
    cases h
  have hg : c ≠ '>' := fun hc => by
    subst hc
    cases h
  rw [scan.eq_6 c r (fun _ hc _ => hl hc) (fun _ hc _ => hg hc) hl hg, if_pos h]

/-- Digits and dots are one version, unless others follow. -/
theorem scan_version {v t : Text} (hn : v ≠ []) (hv : ∀ c ∈ v, isVersionChar c = true)
    (ht : t.head?.any isVersionChar = false) : scan (v ++ t) = version v :: scan t := by
  induction v with
  | nil => exact absurd rfl hn
  | cons c v ih =>
    obtain ⟨hc, hv⟩ := List.forall_mem_cons.1 hv
    rw [List.cons_append, scan_cons hc]
    cases v with
    | nil => rw [List.nil_append, if_neg (Bool.eq_false_iff.1 ht)]
    | cons d v =>
      have hd : (d :: v ++ t).head?.any isVersionChar = true := hv d List.mem_cons_self
      rw [if_pos hd, ih (List.cons_ne_nil d v) hv]
      rfl

/-- A bound has two tokens. -/
theorem scan_bound {b : Bound} (hb : b.Legible) {t : Text}
    (ht : t.head?.any isVersionChar = false) :
    scan (b.toText ++ t) = limit b.limit :: version b.version :: scan t := by
  have he : (b.version ++ t).head? ≠ some '=' := by
    rw [List.head?_append_of_ne_nil _ hb.1]
    exact fun h => absurd (hb.2 '=' (List.mem_of_mem_head? h)) (by decide)
  rw [Bound.toText, List.append_assoc, scan_symbol _ he, scan_version hb.1 hb.2 ht]

/-- A version that goes on in front is not empty. -/
theorem ne_nil_of_mem_consVersion {c : Char} {ts : List RangeToken}
    (ih : ∀ v, version v ∈ ts → v ≠ []) : ∀ v, version v ∈ consVersion c ts → v ≠ [] := by
  have hone : ∀ v, version v ∈ version [c] :: ts → v ≠ [] := fun v hv =>
    (List.mem_cons.1 hv).elim (fun h => by cases h; exact List.cons_ne_nil c []) (ih v)
  cases ts with
  | nil => exact hone
  | cons token ts =>
    cases token with
    | limit l => exact hone
    | version w =>
      intro v hv
      rcases List.mem_cons.1 hv with hv | hv
      · cases hv
        exact List.cons_ne_nil c w
      · exact ih v (List.mem_cons_of_mem _ hv)

/-- No version among the tokens is empty. -/
theorem ne_nil_of_mem_scan (t : Text) : ∀ v, version v ∈ scan t → v ≠ [] := by
  fun_induction scan t with
  | case1 => exact fun v hv => absurd hv List.not_mem_nil
  | case2 r ih | case3 r ih | case4 r _ ih | case5 r _ ih =>
    exact fun v hv => ih v ((List.mem_cons.1 hv).resolve_left RangeToken.noConfusion)
  | case6 c r _ _ _ _ _ _ ih => exact ne_nil_of_mem_consVersion ih
  | case7 c r _ _ _ _ _ _ ih =>
    refine fun v hv => (List.mem_cons.1 hv).elim (fun h => ?_) (ih v)
    cases h
    exact List.cons_ne_nil c []
  | case8 c r _ _ _ _ _ ih => exact ih

end RangeToken

namespace Rule

/-- Bounds are read from their tokens. -/
theorem readBounds_boundTokens (pattern : Text) {n : Nat} {bs : List Bound} (h : bs.length ≤ n) :
    readBounds pattern n (boundTokens (bs.map fun b => (b.limit, b.version))) = .ok bs := by
  induction bs generalizing n with
  | nil => rw [List.map_nil, boundTokens, List.flatMap_nil, readBounds]
  | cons b bs ih =>
    cases n with
    | zero => exact absurd h (Nat.not_succ_le_zero _)
    | succ n =>
      have hb : boundOf pattern b.limit b.version = .ok b := by rw [boundOf, Bound.of_eq]; rfl
      show readBounds pattern (n + 1) (.limit b.limit :: .version b.version :: boundTokens _) = _
      rw [readBounds, hb, ok_bind, ih (Nat.le_of_succ_le_succ h)]
      rfl

/-- The bounds of a range are legible. -/
theorem legible_of_scan {pattern : Text} {bs : List Bound}
    (h : RangeToken.scan pattern = boundTokens (bs.map fun b => (b.limit, b.version))) :
    ∀ b ∈ bs, b.Legible := by
  intro b hb
  have hm : .version b.version ∈ RangeToken.scan pattern := by
    rw [h, boundTokens, List.mem_flatMap]
    exact ⟨_, List.mem_map_of_mem hb, List.mem_cons_of_mem _ List.mem_cons_self⟩
  exact ⟨RangeToken.ne_nil_of_mem_scan _ _ hm, ((RangeToken.standIn_scan _).versions _ hm).2⟩

/-! ## Legible rules -/

/-- A rule whose text has the form of a bare pattern: a range with legible bounds,
    or a version without margins. If the version is not excluded, it does not start
    as a pattern of another form does. -/
inductive Legible : Rule → Prop where
  | version {excluded : Bool} {v : Text} (trimmed : v.Trimmed)
      (start : excluded = false → ∀ c, v.head? = some c → c ≠ '>' ∧ c ≠ '<' ∧ c ≠ '!') :
      Legible (ofVersion excluded v)
  | range {b : Bound} (bound : b.Legible) : Legible (range b)
  | interval {b c : Bound} (first : b.Legible) (second : c.Legible) : Legible (interval b c)

@[simp] theorem toText_ofVersion (excluded : Bool) (v : Text) :
    (ofVersion excluded v).toText = marked excluded v := by
  rw [ofVersion]
  split <;> rfl

/-- What starts with a bound is read as a range. -/
theorem ofBare_bound (b : Bound) (t : Text) : ofBare (b.toText ++ t) = ofRange (b.toText ++ t) := by
  rw [Bound.toText]
  cases b.limit <;> rfl

/-- What starts as no other pattern is read as a version. -/
theorem ofBare_version {t : Text} (h : ∀ c, t.head? = some c → c ≠ '>' ∧ c ≠ '<' ∧ c ≠ '!') :
    ofBare t = .ok (ofVersion false t) := by
  rcases ofBare_cases t with ⟨hs | hs, -⟩ | ⟨r, rfl, -⟩ | ⟨-, he⟩
  · exact absurd rfl (h _ hs).1
  · exact absurd rfl (h _ hs).2.1
  · exact absurd rfl (h '!' rfl).2.2
  · exact he

/-- A range is made of the bounds that its tokens are those of. -/
theorem ofRange_of_scan (pattern : Text) (bs : List Bound) (hl : bs.length ≤ 2)
    (h : RangeToken.scan pattern = boundTokens (bs.map fun b => (b.limit, b.version))) :
    ofRange pattern = match bs with
      | [b] => .ok (range b)
      | [b, c] => .ok (interval b c)
      | _ => .error (.noBound pattern) := by
  rw [ofRange, h, readBounds_boundTokens pattern hl, ok_bind]
  rfl

/-- A legible rule is read from its text. -/
theorem Legible.ofBare_toText {rule : Rule} (h : rule.Legible) :
    ofBare rule.toText = .ok rule := by
  cases h with
  | @version excluded v trimmed start =>
    rw [toText_ofVersion]
    cases excluded with
    | false => exact ofBare_version (start rfl)
    | true =>
      show Except.ok (ofVersion true (Text.trim v)) = _
      rw [trimmed.trim_eq]
  | @range b bound =>
    have hs : RangeToken.scan (b.toText ++ []) = boundTokens [(b.limit, b.version)] :=
      RangeToken.scan_bound bound rfl
    rw [toText, ← List.append_nil b.toText, ofBare_bound]
    exact ofRange_of_scan _ [b] (Nat.le_succ 1) hs
  | @interval b c first second =>
    have hs : RangeToken.scan (b.toText ++ ' ' :: (c.toText ++ [])) =
        boundTokens [(b.limit, b.version), (c.limit, c.version)] := by
      rw [RangeToken.scan_bound first rfl]
      show _ :: _ :: RangeToken.scan (c.toText ++ []) = _
      rw [RangeToken.scan_bound second rfl]
      rfl
    rw [List.append_nil] at hs
    rw [toText, ofBare_bound]
    exact ofRange_of_scan _ [b, c] (Nat.le_refl 2) hs

/-- The text of a legible rule has no margins. -/
theorem Legible.trimmed_toText {rule : Rule} (h : rule.Legible) : rule.toText.Trimmed := by
  have hbound {b : Bound} (hb : b.Legible) : b.toText.Trimmed ∧ b.toText ≠ [] := by
    have hsymbol : ∀ c ∈ b.limit.symbol, isBlank c = false := by
      cases b.limit <;> simp [Limit.symbol, Limit.relation, Relation.symbol, isBlank]
    have hversion : ∀ c ∈ b.version, isBlank c = false := fun c hc =>
      RangeToken.isBlank_of_isVersionChar (hb.2 c hc)
    exact ⟨(Text.trimmed_of_forall_not hsymbol).append (Text.trimmed_of_forall_not hversion),
      List.append_ne_nil_of_right_ne_nil _ hb.1⟩
  cases h with
  | @version excluded v trimmed start =>
    rw [toText_ofVersion]
    cases excluded with
    | false => exact trimmed
    | true => exact (Text.trimmed_of_forall_not (List.forall_mem_singleton.2 rfl)).append trimmed
  | range bound => exact (hbound bound).1
  | @interval b c first second =>
    rw [toText, ← List.singleton_append, ← List.append_assoc]
    exact (hbound first).1.around (hbound second).1 (hbound first).2 (hbound second).2 _

/-- A bare pattern without margins states a legible rule. -/
theorem legible_of_ofBare {t : Text} {rule : Rule} (ht : t.Trimmed) (h : ofBare t = .ok rule) :
    rule.Legible := by
  rcases ofBare_cases t with ⟨-, he⟩ | ⟨r, -, he⟩ | ⟨hstart, he⟩
  · rw [he] at h
    obtain ⟨bs, hs, h⟩ := bounds_of_ofRange h
    have hb := legible_of_scan hs
    rcases h with ⟨b, rfl, rfl⟩ | ⟨b, c, rfl, rfl⟩
    · exact .range (hb b List.mem_cons_self)
    · exact .interval (hb b List.mem_cons_self) (hb c (List.mem_cons_of_mem _ List.mem_cons_self))
  · obtain rfl := Except.ok.inj (he.symm.trans h)
    exact .version (Text.trimmed_trim r) Bool.noConfusion
  · obtain rfl := Except.ok.inj (he.symm.trans h)
    exact .version ht fun _ => hstart

/-- The rule of a bare pattern is written with the characters of the pattern and
    spaces. -/
theorem mem_of_ofBare {t : Text} {rule : Rule} (h : ofBare t = .ok rule) {c : Char}
    (hc : c ∈ rule.toText) : c ∈ t ∨ c = ' ' := by
  rcases ofBare_cases t with ⟨-, he⟩ | ⟨r, rfl, he⟩ | ⟨-, he⟩
  · rw [he] at h
    have hm : c ∈ RangeToken.texts (RangeToken.scan t) ∨ c = ' ' := by
      obtain ⟨bs, hs, h⟩ := bounds_of_ofRange h
      rw [hs, texts_boundTokens]
      rcases h with ⟨b, rfl, rfl⟩ | ⟨b, d, rfl, rfl⟩
      · exact .inl (List.mem_flatMap.2 ⟨b, List.mem_cons_self, hc⟩)
      · simpa [toText, or_comm, or_assoc, or_left_comm] using hc
    exact hm.imp_left fun hm => (List.mem_filter.1 ((RangeToken.texts_scan_sublist t).subset hm)).1
  · obtain rfl := Except.ok.inj (he.symm.trans h)
    rw [toText_ofVersion] at hc
    refine .inl ((List.mem_cons.1 hc).elim (fun hc => hc ▸ List.mem_cons_self) fun hc => ?_)
    exact List.mem_cons_of_mem _ ((Text.trim_infix r).subset hc)
  · obtain rfl := Except.ok.inj (he.symm.trans h)
    rw [toText_ofVersion] at hc
    exact .inl hc

/-! ## Patterns -/

/-- The rules that patterns state are legible. -/
theorem legible_of_ofPattern {t : Text} {rule : Rule} (h : ofPattern t = .ok rule) :
    rule.Legible := by
  obtain ⟨inner, -, h⟩ := exists_ofBare_of_ofPattern h
  exact legible_of_ofBare (Text.trimmed_trim inner) h

/-- A rule is written with the characters of its pattern and spaces. -/
theorem mem_of_ofPattern {t : Text} {rule : Rule} (h : ofPattern t = .ok rule) {c : Char}
    (hc : c ∈ rule.toText) : c ∈ t ∨ c = ' ' := by
  obtain ⟨inner, hi, h⟩ := exists_ofBare_of_ofPattern h
  exact (mem_of_ofBare h hc).imp_left fun hc => hi.subset ((Text.trim_infix inner).subset hc)

/-- A text without margins stands for itself if it does not start with a mark. -/
theorem unwraps_self {o c : Char} {t : Text} (ht : t.Trimmed) (h : t.head? ≠ some o) :
    Unwraps o c t t := .inr ⟨ht.trim_eq.symm ▸ h, ht.trim_eq.symm⟩

/-- The rule has a text that starts with no mark, so that nothing is taken off it. -/
def Unmarked (rule : Rule) : Prop :=
  rule.toText ≠ [] ∧ rule.toText.head? ≠ some '"' ∧ rule.toText.head? ≠ some '\'' ∧
    rule.toText.head? ≠ some '['

instance (rule : Rule) : Decidable rule.Unmarked := inferInstanceAs (Decidable (_ ∧ _))

/-- A legible rule without marks is read from its text, whatever the margins of
    this are. -/
theorem ofPattern_toText {rule : Rule} (hl : rule.Legible) (hu : rule.Unmarked) {t : Text}
    (ht : t.trim = rule.toText) : ofPattern t = .ok rule := by
  have hdouble : unwrap ['"'] [] t = .ok rule.toText :=
    (unwrap_eq_ok_iff (.inr ⟨rfl, rfl⟩)).2 (.inr ⟨ht ▸ hu.2.1, ht.symm⟩)
  have hsingle : unwrap ['\''] [] rule.toText = .ok rule.toText :=
    (unwrap_eq_ok_iff (.inr ⟨rfl, rfl⟩)).2 (unwraps_self hl.trimmed_toText hu.2.2.1)
  rw [ofPattern, hdouble, ok_bind, hsingle, ok_bind, hl.trimmed_toText.trim_eq]
  exact hl.ofBare_toText

end Rule

end TestGrid
