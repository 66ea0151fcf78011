import TestGrid.Proofs.Runs
import TestGrid.Rule.Syntax

/-!
# The grammar of rules

Which texts are rules and lines of rules, said without reading them:

* a text is *unwrapped* if it stands between two marks, or has no opening mark
  (`Rule.Unwraps`);
* a *range* has the tokens of one or two bounds (`Rule.IsRange`);
* a *pattern* is unwrapped from quotes and is a range if it starts as one
  (`Rule.IsPattern`);
* a *statement* is a component, an equals sign and patterns, which may be
  unwrapped from brackets (`Statement.IsLine`).

Reading tells whether a text is of this form (`Statement.judged_ofLine`): it
has a result if it is, and a fault if it is not. The only other fault is a
number with too many digits.
-/

namespace TestGrid

open Version Fallible

/-- The outcome of reading a text tells whether the text is good, unless there
    are too many digits in it for a number. -/
def Judged {α : Type} (good : Prop) (t : Text) : Except SyntaxFault α → Prop
  | .ok _ => good
  | .error (.tooLong n) => digitLimit < n ∧ t.HasRun n
  | .error _ => ¬good

namespace Judged

variable {α β : Type} {good good' : Prop} {t t' : Text} {outcome : Except SyntaxFault α}

theorem of_ok {a : α} (h : good) : Judged good t (.ok a : Except SyntaxFault α) := h

theorem of_error {f : SyntaxFault} (h : ¬good) (hf : ∀ n, f ≠ .tooLong n) :
    Judged good t (.error f : Except SyntaxFault α) := by
  cases f with
  | tooLong n => exact absurd rfl (hf n)
  | _ => exact h

theorem of_tooLong {n : Nat} (hn : digitLimit < n) (hr : t.HasRun n) :
    Judged good t (.error (.tooLong n) : Except SyntaxFault α) := ⟨hn, hr⟩

/-- A part of a text may be read for the whole, if it is good in the same
    case. -/
theorem of_part (h : Judged good t outcome) (ht : t <:+: t') (hg : good' ↔ good) :
    Judged good' t' outcome := by
  cases outcome with
  | ok a => exact hg.2 h
  | error f =>
    cases f with
    | tooLong n => exact ⟨h.1, h.2.mono ht⟩
    | _ => exact fun hg' => h (hg.1 hg')

/-- What is made of the result does not count. -/
theorem bind_pure (h : Judged good t outcome) (g : α → β) :
    Judged good t (outcome >>= fun a => pure (g a)) := by
  cases outcome with
  | ok a => exact h
  | error f => cases f <;> exact h

/-- Reading several parts of a text tells whether all of them are good. -/
theorem mapM {f : Text → Except SyntaxFault α} {good : Text → Prop} {parts : List Text}
    (h : ∀ p ∈ parts, Judged (good p) p (f p)) (ht : ∀ p ∈ parts, p <:+: t) :
    Judged (∀ p ∈ parts, good p) t (parts.mapM f) := by
  rcases exists_ok_or_error (parts.mapM f) with ⟨as, ha⟩ | ⟨e, he⟩
  · rw [ha]
    refine of_ok fun p hp => ?_
    obtain ⟨a, hf⟩ := exists_mapM_eq_ok.1 ⟨as, ha⟩ p hp
    have hj := h p hp
    rw [hf] at hj
    exact hj
  · obtain ⟨before, p, behind, rfl, -, hf⟩ := mapM_eq_error.1 he
    have hp : p ∈ before ++ p :: behind := List.mem_append_right _ List.mem_cons_self
    have hj := h p hp
    rw [hf] at hj
    rw [he]
    cases e with
    | tooLong n => exact ⟨hj.1, hj.2.mono (ht p hp)⟩
    | _ => exact fun hall => hj (hall p hp)

/-- A text that is not good has a fault, which is that of the text or a number with too
    many digits. -/
theorem exists_error (h : Judged good t outcome) (hg : ¬good) : ∃ f, outcome = .error f ∧
    ((∀ n, f ≠ .tooLong n) ∨ ∃ n, f = .tooLong n ∧ digitLimit < n ∧ t.HasRun n) := by
  match outcome, h with
  | .ok a, h => exact absurd h hg
  | .error f, h =>
    refine ⟨f, rfl, ?_⟩
    cases f with
    | tooLong n => exact .inr ⟨n, rfl, h⟩
    | _ => exact .inl fun _ => SyntaxFault.noConfusion

/-- A text has a fault of its own only if it is not good. -/
theorem not_of_error {f : SyntaxFault} (h : Judged good t (.error f : Except SyntaxFault α))
    (hf : ∀ n, f ≠ .tooLong n) : ¬good := by
  cases f with
  | tooLong n => exact absurd rfl (hf n)
  | _ => exact h

/-- If no run of digits is too long, a good text is read. -/
theorem exists_ok_iff (h : Judged good t outcome) (hc : t.Countable) :
    (∃ a, outcome = .ok a) ↔ good := by
  match outcome, h with
  | .ok a, h => exact ⟨fun _ => h, fun _ => ⟨a, rfl⟩⟩
  | .error f, h =>
    refine ⟨fun ⟨_, ha⟩ => (nomatch ha), fun hg => ?_⟩
    cases f with
    | tooLong n => exact absurd (hc n h.2) (Nat.not_le_of_lt h.1)
    | _ => exact absurd hg h

end Judged

/-! ## Ranges -/

namespace RangeToken

/-- The versions among the tokens stand in the text and consist of digits and
    dots. One that comes first begins the text, if a digit or a dot does. -/
structure StandIn (t : Text) (ts : List RangeToken) : Prop where
  versions : ∀ v, version v ∈ ts → v <:+: t ∧ ∀ c ∈ v, isVersionChar c = true
  first : ∀ v, ts.head? = some (version v) → t.head?.any isVersionChar = true → v <+: t

namespace StandIn

variable {t r : Text} {ts : List RangeToken}

/-- Characters that are passed over may stand in front. -/
theorem behind (h : StandIn r ts) (hr : r <:+ t) (ht : t.head?.any isVersionChar = false) :
    StandIn t ts where
  versions v hv := ⟨(h.versions v hv).1.trans hr.isInfix, (h.versions v hv).2⟩
  first _ _ hc := absurd hc (Bool.eq_false_iff.1 ht)

/-- A limit may stand in front. -/
theorem behindLimit (h : StandIn r ts) (hr : r <:+ t) (l : Limit) :
    StandIn t (limit l :: ts) where
  versions v hv := by
    have hv : version v ∈ ts := (List.mem_cons.1 hv).resolve_left RangeToken.noConfusion
    exact ⟨(h.versions v hv).1.trans hr.isInfix, (h.versions v hv).2⟩
  first v hv _ := by cases hv

variable {c : Char} (hc : isVersionChar c = true)

include hc

/-- A version of one character may stand in front. -/
theorem behindOne (h : StandIn r ts) : StandIn (c :: r) (version [c] :: ts) := by
  have hone : [c] <+: c :: r := (List.prefix_cons_inj c).2 List.nil_prefix
  refine ⟨fun v hv => ?_, fun v hv _ => ?_⟩
  · rcases List.mem_cons.1 hv with hv | hv
    · cases hv
      exact ⟨hone.isInfix, List.forall_mem_singleton.2 hc⟩
    · exact ⟨(h.versions v hv).1.trans (List.suffix_cons c r).isInfix, (h.versions v hv).2⟩
  · cases hv
    exact hone

/-- A version that the tokens start with may go on in front. -/
theorem consVersion (h : StandIn r ts) (hr : r.head?.any isVersionChar = true) :
    StandIn (c :: r) (consVersion c ts) := by
  cases ts with
  | nil => exact h.behindOne hc
  | cons token ts =>
    cases token with
    | limit l => exact h.behindOne hc
    | version w =>
      have hw : c :: w <+: c :: r := (List.prefix_cons_inj c).2 (h.first w rfl hr)
      have hd := (h.versions w List.mem_cons_self).2
      refine ⟨fun v hv => ?_, fun v hv _ => ?_⟩
      · rcases List.mem_cons.1 hv with hv | hv
        · cases hv
          exact ⟨hw.isInfix, List.forall_mem_cons.2 ⟨hc, hd⟩⟩
        · have hv := h.versions v (List.mem_cons_of_mem _ hv)
          exact ⟨hv.1.trans (List.suffix_cons c r).isInfix, hv.2⟩
      · cases hv
        exact hw

end StandIn

theorem standIn_scan (t : Text) : StandIn t (scan t) := by
  -- Limits, then versions that go on, then versions of one character, then the rest.
  fun_induction scan t with
  | case1 => exact ⟨fun v hv => absurd hv List.not_mem_nil, fun v hv => by cases hv⟩
  | case2 r ih => exact ih.behindLimit ((List.suffix_cons _ r).trans (List.suffix_cons _ _)) _
  | case3 r ih => exact ih.behindLimit ((List.suffix_cons _ r).trans (List.suffix_cons _ _)) _
  | case4 r _ ih => exact ih.behindLimit (List.suffix_cons _ r) _
  | case5 r _ ih => exact ih.behindLimit (List.suffix_cons _ r) _
  | case6 c r _ _ _ _ hc hr ih => exact ih.consVersion hc hr
  | case7 c r _ _ _ _ hc _ ih => exact ih.behindOne hc
  | case8 c r _ _ _ _ hc ih => exact ih.behind (List.suffix_cons c r) (by simpa using hc)

end RangeToken

namespace Rule

/-- The tokens of bounds with these limits and versions. -/
def boundTokens (pairs : List (Limit × Text)) : List RangeToken :=
  pairs.flatMap fun (l, v) => [.limit l, .version v]

/-- A pattern that is a range: it has the tokens of one or of two bounds. -/
def IsRange (pattern : Text) : Prop :=
  ∃ pairs, (pairs.length = 1 ∨ pairs.length = 2) ∧ RangeToken.scan pattern = boundTokens pairs

/-- A version in a range sets a bound, unless it has too many digits. -/
theorem boundOf_of_digits {pattern : Text} {l : Limit} {v : Text}
    (h : ∀ c ∈ v, RangeToken.isVersionChar c = true) :
    (∃ b, boundOf pattern l v = .ok b) ∨
      ∃ n, boundOf pattern l v = .error (.tooLong n) ∧ digitLimit < n ∧ v.HasRun n := by
  have hd : ∀ c ∈ v, c.isDigit = true ∨ c = '.' := by
    simpa [RangeToken.isVersionChar] using h
  rw [boundOf, Bound.of]
  split
  · exact .inl ⟨_, rfl⟩
  · next f hf =>
    rcases Key.ofText_of_digits hd with ⟨k, hk⟩ | ⟨n, hn⟩
    · rw [hk] at hf
      cases hf
    · rw [hn] at hf
      cases hf
      exact .inr ⟨n, rfl, Key.hasRun_of_tooLong hn⟩

/-- Tokens are read as bounds if they are the tokens of bounds. -/
theorem judged_readBounds {pattern : Text} (n : Nat) {ts : List RangeToken}
    (h : ∀ v, .version v ∈ ts → v <:+: pattern ∧ ∀ c ∈ v, RangeToken.isVersionChar c = true) :
    Judged (∃ pairs, pairs.length ≤ n ∧ ts = boundTokens pairs) pattern
      (readBounds pattern n ts) := by
  fun_induction readBounds pattern n ts with
  | case1 => exact .of_ok ⟨[], Nat.zero_le _, rfl⟩
  | case2 t ts =>
    refine .of_error ?_ fun _ => SyntaxFault.noConfusion
    rintro ⟨pairs, hl, he⟩
    obtain rfl := List.length_eq_zero_iff.1 (Nat.le_zero.1 hl)
    cases he
  | case3 | case4 | case5 =>
    -- The tokens do not start with a limit and a version.
    refine .of_error ?_ fun _ => SyntaxFault.noConfusion
    rintro ⟨_ | ⟨p, pairs⟩, -, he⟩ <;> cases he
  | case6 n l v ts ih =>
    obtain ⟨hv, hd⟩ := h v (List.mem_cons_of_mem _ List.mem_cons_self)
    rcases boundOf_of_digits hd with ⟨b, hb⟩ | ⟨m, hb, hm, hr⟩
    · rw [hb]
      have ih := ih fun v hv => h v (List.mem_cons_of_mem _ (List.mem_cons_of_mem _ hv))
      refine (ih.of_part List.infix_rfl ?_).bind_pure (b :: ·)
      -- The tokens behind the first bound are those of the other bounds.
      constructor
      · rintro ⟨_ | ⟨p, pairs⟩, hl, he⟩
        · cases he
        · cases he
          exact ⟨pairs, Nat.le_of_succ_le_succ hl, rfl⟩
      · rintro ⟨pairs, hl, rfl⟩
        exact ⟨(l, v) :: pairs, Nat.succ_le_succ hl, rfl⟩
    · rw [hb]
      exact .of_tooLong hm (hr.mono hv)

/-- Bounds that are read have the tokens that they are read from. -/
theorem boundTokens_of_readBounds {pattern : Text} {n : Nat} {ts : List RangeToken}
    {bs : List Bound} (h : readBounds pattern n ts = .ok bs) :
    bs.length ≤ n ∧ ts = boundTokens (bs.map fun b => (b.limit, b.version)) := by
  fun_induction readBounds pattern n ts generalizing bs with
  | case1 =>
    cases h
    exact ⟨Nat.zero_le _, rfl⟩
  | case6 n l v ts ih =>
    obtain ⟨b, hb, h⟩ := bind_eq_ok.1 h
    obtain ⟨bs', hbs, h⟩ := bind_eq_ok.1 h
    cases h
    have hlv : b.limit = l ∧ b.version = v := by
      rw [boundOf, mapError_eq_ok, Bound.of] at hb
      split at hb
      · cases hb
        exact ⟨rfl, rfl⟩
      · cases hb
    refine ⟨Nat.succ_le_succ (ih hbs).1, ?_⟩
    rw [(ih hbs).2, ← hlv.1, ← hlv.2]
    rfl
  | _ => cases h

theorem judged_ofRange (pattern : Text) : Judged (IsRange pattern) pattern (ofRange pattern) := by
  have hj : Judged (∃ pairs, pairs.length ≤ 2 ∧ RangeToken.scan pattern = boundTokens pairs)
      pattern (readBounds pattern 2 (RangeToken.scan pattern)) :=
    judged_readBounds 2 (RangeToken.standIn_scan pattern).versions
  rw [ofRange]
  rcases exists_ok_or_error (readBounds pattern 2 (RangeToken.scan pattern)) with ⟨bs, h⟩ | ⟨f, h⟩
  · obtain ⟨hl, ht⟩ := boundTokens_of_readBounds h
    rw [h]
    match bs with
    | [] =>
      refine .of_error ?_ fun _ => SyntaxFault.noConfusion
      rintro ⟨pairs, hp, he⟩
      rw [ht] at he
      match pairs with
      | [] => simp at hp
      | _ :: _ => cases he
    | [b] => exact .of_ok ⟨_, .inl rfl, ht⟩
    | [b, c] => exact .of_ok ⟨_, .inr rfl, ht⟩
    | _ :: _ :: _ :: _ => simp at hl
  · rw [h] at hj ⊢
    have hr : IsRange pattern → ∃ pairs : List (Limit × Text), pairs.length ≤ 2 ∧
        RangeToken.scan pattern = boundTokens pairs := by
      rintro ⟨pairs, hp, he⟩
      exact ⟨pairs, by omega, he⟩
    cases f with
    | tooLong n => exact hj
    | _ => exact fun hi => hj (hr hi)

/-! ## Patterns -/

/-- Without its blank margins the text stands between the marks around `inner`,
    or it does not start with the opening one and is `inner`. -/
def Unwraps (opening closing : Char) (t inner : Text) : Prop :=
  t.trim = opening :: (inner ++ [closing]) ∨ t.trim.head? ≠ some opening ∧ inner = t.trim

theorem Unwraps.isInfix {opening closing : Char} {t inner : Text}
    (h : Unwraps opening closing t inner) : inner <:+: t := by
  rcases h with h | ⟨-, rfl⟩
  · refine List.IsInfix.trans ?_ (Text.trim_infix t)
    exact ⟨[opening], [closing], by rw [h]; rfl⟩
  · exact Text.trim_infix t

/-- Behind the opening mark, one character is taken off the end if it is the
    closing mark. -/
theorem takeOff_eq_ok_iff {o c : Char} {r inner : Text} {f : SyntaxFault} :
    (if 1 < (o :: r).length && List.isSuffixOf [c] (o :: r) then .ok ((o :: r).drop 1).dropLast
      else .error f : Except SyntaxFault Text) = .ok inner ↔ r = inner ++ [c] := by
  simp only [Bool.and_eq_true, decide_eq_true_eq, List.isSuffixOf_iff_suffix]
  rcases List.eq_nil_or_concat r with rfl | ⟨r, d, rfl⟩
  · simp
  · have hlen : 1 < (o :: (r ++ [d])).length := by simp
    have hsuffix : [c] <:+ o :: (r ++ [d]) ↔ d = c := by
      rw [← List.cons_append, List.singleton_suffix_append_singleton_iff]
      exact eq_comm
    rw [List.concat_eq_append, List.append_singleton_inj]
    by_cases hd : d = c
    · rw [if_pos ⟨hlen, hsuffix.2 hd⟩]
      simp [hd]
    · rw [if_neg fun h => hd (hsuffix.1 h.2)]
      simp [hd]

/-- Taking off marks unwraps a text. If the closing mark is left out, it is the
    opening one. -/
theorem unwrap_eq_ok_iff {o c : Char} {closing : Text} (hc : closing = [c] ∨ closing = [] ∧ c = o)
    {t inner : Text} : unwrap [o] closing t = .ok inner ↔ Unwraps o c t inner := by
  have hclosing : (if closing.isEmpty then [o] else closing) = [c] := by
    rcases hc with rfl | ⟨rfl, rfl⟩ <;> rfl
  rw [unwrap, Unwraps, hclosing]
  cases t.trim with
  | nil =>
    show (Except.ok [] : Except SyntaxFault Text) = .ok inner ↔ _
    simp
  | cons d r =>
    by_cases hd : d = o
    · subst hd
      have hp : List.isPrefixOf [d] (d :: r) = true := by simp
      rw [if_pos hp, takeOff_eq_ok_iff]
      simp
    · have hp : ¬List.isPrefixOf [o] (d :: r) = true := by simp [Ne.symm hd]
      rw [if_neg hp]
      simp [hd, @eq_comm _ inner (d :: r)]

/-- Marks are never a number with too many digits. -/
theorem unwrap_eq_error {opening closing t : Text} {f : SyntaxFault}
    (h : unwrap opening closing t = .error f) : f = .unclosed t.trim := by
  simp only [unwrap] at h
  generalize (if closing.isEmpty then opening else closing) = closing at h
  split at h
  · split at h
    · cases h
    · cases h
      rfl
  · cases h

/-- A bare pattern: if it starts as a range, it is one. -/
def IsBare (t : Text) : Prop := t.head? = some '>' ∨ t.head? = some '<' → IsRange t

/-- A pattern: unwrapped from double quotes, then from single ones, it is a bare
    one. -/
def IsPattern (t : Text) : Prop :=
  ∃ t' inner, Unwraps '"' '"' t t' ∧ Unwraps '\'' '\'' t' inner ∧ IsBare inner.trim

/-- A bare pattern is a range, an excluded version or a version, which is told by
    its first character. -/
theorem ofBare_cases (t : Text) :
    ((t.head? = some '>' ∨ t.head? = some '<') ∧ ofBare t = ofRange t) ∨
      (∃ r, t = '!' :: r ∧ ofBare t = .ok (ofVersion true (Text.trim r))) ∨
      (∀ c, t.head? = some c → c ≠ '>' ∧ c ≠ '<' ∧ c ≠ '!') ∧
        ofBare t = .ok (ofVersion false t) := by
  rw [ofBare.eq_def]
  split
  · exact .inl ⟨.inl rfl, rfl⟩
  · exact .inl ⟨.inr rfl, rfl⟩
  · exact .inr (.inl ⟨_, rfl, rfl⟩)
  · next h₁ h₂ h₃ =>
    refine .inr (.inr ⟨fun c hc => ?_, rfl⟩)
    obtain ⟨r, rfl⟩ := List.head?_eq_some_iff.1 hc
    exact ⟨fun hc => h₁ r (hc ▸ rfl), fun hc => h₂ r (hc ▸ rfl), fun hc => h₃ r (hc ▸ rfl)⟩

theorem judged_ofBare (t : Text) : Judged (IsBare t) t (ofBare t) := by
  rcases ofBare_cases t with ⟨hs, he⟩ | ⟨r, rfl, he⟩ | ⟨hs, he⟩
  · rw [he]
    exact (judged_ofRange t).of_part List.infix_rfl ⟨fun hb => hb hs, fun hr _ => hr⟩
  · rw [he]
    exact .of_ok fun h => by simp at h
  · rw [he]
    exact .of_ok fun h => h.elim (fun h => absurd rfl (hs _ h).1) fun h => absurd rfl (hs _ h).2.1

/-- If a text is read on once it is unwrapped, the whole is good if it can be
    unwrapped and what stands between the marks is good. -/
theorem judged_unwrap {α : Type} {o c : Char} {closing : Text}
    (hc : closing = [c] ∨ closing = [] ∧ c = o) {t : Text} {good : Text → Prop}
    {next : Text → Except SyntaxFault α} (h : ∀ inner, Judged (good inner) inner (next inner)) :
    Judged (∃ inner, Unwraps o c t inner ∧ good inner) t (unwrap [o] closing t >>= next) := by
  rcases exists_ok_or_error (unwrap [o] closing t) with ⟨inner, hu⟩ | ⟨f, hu⟩
  · have hi := (unwrap_eq_ok_iff hc).1 hu
    rw [hu]
    refine (h inner).of_part hi.isInfix ⟨?_, fun hg => ⟨inner, hi, hg⟩⟩
    rintro ⟨inner', hi', hg⟩
    have := (unwrap_eq_ok_iff hc).2 hi'
    rw [hu] at this
    cases this
    exact hg
  · rw [hu, unwrap_eq_error hu]
    refine .of_error ?_ fun _ => SyntaxFault.noConfusion
    rintro ⟨inner, hi, -⟩
    rw [(unwrap_eq_ok_iff hc).2 hi] at hu
    cases hu

theorem judged_ofPattern (t : Text) : Judged (IsPattern t) t (ofPattern t) := by
  have hinner (t : Text) : Judged (∃ inner, Unwraps '\'' '\'' t inner ∧ IsBare inner.trim) t
      (do ofBare (← unwrap ['\''] [] t).trim) :=
    judged_unwrap (.inr ⟨rfl, rfl⟩) fun inner =>
      (judged_ofBare inner.trim).of_part (Text.trim_infix inner) .rfl
  refine (judged_unwrap (o := '"') (.inr ⟨rfl, rfl⟩) hinner).of_part List.infix_rfl ?_
  simp only [IsPattern, exists_and_left]

/-- Unwrapped, a pattern is a bare one. -/
theorem exists_ofBare_of_ofPattern {t : Text} {rule : Rule} (h : ofPattern t = .ok rule) :
    ∃ inner, inner <:+: t ∧ ofBare (Text.trim inner) = .ok rule := by
  obtain ⟨t', ht, h⟩ := bind_eq_ok.1 h
  obtain ⟨inner, hi, h⟩ := bind_eq_ok.1 h
  have ht := (unwrap_eq_ok_iff (.inr ⟨rfl, rfl⟩)).1 ht
  have hi := (unwrap_eq_ok_iff (.inr ⟨rfl, rfl⟩)).1 hi
  exact ⟨inner, hi.isInfix.trans ht.isInfix, h⟩

/-- What is read from a pattern is a rule of a known form. -/
theorem ofPattern_ne_unknown {t shown : Text} : ofPattern t ≠ .ok (unknown shown) := by
  have hversion (e : Bool) (t : Text) : ofVersion e t ≠ unknown shown := by
    rw [ofVersion]
    split <;> exact Rule.noConfusion
  intro h
  obtain ⟨inner, -, h⟩ := exists_ofBare_of_ofPattern h
  rcases ofBare_cases (Text.trim inner) with ⟨-, he⟩ | ⟨r, -, he⟩ | ⟨-, he⟩
  · rw [he] at h
    obtain ⟨bs, -, h⟩ := bind_eq_ok.1 h
    split at h <;> cases h
  · exact hversion _ _ (Except.ok.inj (he.symm.trans h))
  · exact hversion _ _ (Except.ok.inj (he.symm.trans h))

end Rule

/-! ## Statements -/

namespace Statement

/-- A list of patterns, unwrapped from brackets. Blank ones do not count. -/
def IsList (t : Text) : Prop :=
  ∃ inner, Rule.Unwraps '[' ']' t inner ∧
    ∀ p ∈ inner.pieces (· = ','), p.trim ≠ [] → Rule.IsPattern p

/-- A line that states rules: a component in front of the first equals sign and
    a list of patterns behind it. -/
def IsLine (line : Text) : Prop :=
  ∃ component patterns, line = component ++ '=' :: patterns ∧ '=' ∉ component ∧
    component.trim ≠ [] ∧ IsList patterns

theorem judged_readPatterns (t : Text) : Judged (IsList t) t (readPatterns t) := by
  refine Rule.judged_unwrap (.inl rfl) fun inner => ?_
  have hj : Judged (∀ p ∈ (inner.pieces (· = ',')).filter (!·.trim.isEmpty), Rule.IsPattern p)
      inner (((inner.pieces (· = ',')).filter (!·.trim.isEmpty)).mapM Rule.ofPattern) :=
    Judged.mapM (fun p _ => Rule.judged_ofPattern p) fun p hp =>
      Text.infix_of_mem_pieces (List.mem_of_mem_filter hp)
  refine hj.of_part List.infix_rfl ?_
  simp only [List.mem_filter, Bool.not_eq_true', List.isEmpty_eq_false_iff, and_imp, ne_eq]

/-- A line is read if it states rules. If it does not, or if it has too many
    digits for a number, there is a fault. -/
theorem judged_ofLine (line : Text) : Judged (IsLine line) line (ofLine line) := by
  rw [ofLine]
  split
  · next hc =>
    refine .of_error ?_ fun _ => SyntaxFault.noConfusion
    rintro ⟨component, patterns, rfl, -, -⟩
    exact Text.cut_eq_none_iff.1 hc (List.mem_append_right _ List.mem_cons_self)
  · next component patterns hc =>
    have hline : IsLine line ↔ component.trim ≠ [] ∧ IsList patterns :=
      Text.exists_splitting_iff hc
    have hpart : patterns <:+: line := Text.infix_of_cut hc
    dsimp only
    split
    · next he =>
      refine .of_error (fun hg => ?_) fun _ => SyntaxFault.noConfusion
      exact (hline.1 hg).1 (List.isEmpty_iff.1 he)
    · next he =>
      have he : component.trim ≠ [] := fun h => he (List.isEmpty_iff.2 h)
      exact ((judged_readPatterns patterns).of_part hpart
        (hline.trans (and_iff_right he))).bind_pure _

/-- A list of patterns is unwrapped, and its pieces are read that are not blank. -/
theorem readPatterns_eq_ok_iff {t : Text} {rules : List Rule} :
    readPatterns t = .ok rules ↔ ∃ inner, Rule.Unwraps '[' ']' t inner ∧
      ((inner.pieces (· = ',')).filter (!·.trim.isEmpty)).mapM Rule.ofPattern = .ok rules := by
  rw [readPatterns, bind_eq_ok]
  simp only [Rule.unwrap_eq_ok_iff (c := ']') (.inl rfl)]

/-- A line states what stands around its first equals sign. -/
theorem ofLine_eq_ok_iff {line : Text} {s : Statement} :
    ofLine line = .ok s ↔ ∃ component patterns, line = component ++ '=' :: patterns ∧
      '=' ∉ component ∧ component.trim ≠ [] ∧ s.component = component.trim ∧
      readPatterns patterns = .ok s.rules := by
  rw [ofLine]
  constructor
  · intro h
    split at h
    · cases h
    · next component patterns hc =>
      obtain ⟨hl, hn⟩ := Text.cut_eq_some_iff.1 hc
      dsimp only at h
      split at h
      · cases h
      · next he =>
        obtain ⟨rules, hr, h⟩ := bind_eq_ok.1 h
        cases h
        exact ⟨component, patterns, hl, hn, fun h => he (List.isEmpty_iff.2 h), rfl, hr⟩
  · rintro ⟨component, patterns, hl, hn, he, hs, hr⟩
    rw [Text.cut_eq_some_iff.2 ⟨hl, hn⟩]
    dsimp only
    rw [if_neg fun h => he (List.isEmpty_iff.1 h), hr, ← hs]
    rfl

/-- A rule of a list of patterns is that of a piece, which is not blank. -/
theorem exists_ofPattern_of_readPatterns {t : Text} {rules : List Rule}
    (h : readPatterns t = .ok rules) {rule : Rule} (hr : rule ∈ rules) :
    ∃ p : Text, (p <:+: t ∧ p.trim ≠ [] ∧ ',' ∉ p) ∧ Rule.ofPattern p = .ok rule := by
  obtain ⟨inner, hi, h⟩ := readPatterns_eq_ok_iff.1 h
  obtain ⟨p, hp, h⟩ := exists_of_mem_mapM h hr
  obtain ⟨hp, hb⟩ := List.mem_filter.1 hp
  have hpart : p <:+: t := (Text.infix_of_mem_pieces hp).trans hi.isInfix
  refine ⟨p, ⟨hpart, by simpa using hb, fun hc => ?_⟩, h⟩
  exact absurd (Text.sep_of_mem_pieces hp hc) (by decide)

/-- The rules of a statement are of known forms. -/
theorem ne_unknown_of_mem {line : Text} {s : Statement} (h : ofLine line = .ok s) {rule : Rule}
    (hr : rule ∈ s.rules) (shown : Text) : rule ≠ .unknown shown := by
  obtain ⟨_, _, -, -, -, -, hrules⟩ := ofLine_eq_ok_iff.1 h
  obtain ⟨p, -, hp⟩ := exists_ofPattern_of_readPatterns hrules hr
  rintro rfl
  exact Rule.ofPattern_ne_unknown hp

end Statement

end TestGrid
