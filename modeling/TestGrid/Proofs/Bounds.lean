import TestGrid.Proofs.Inclusion
import TestGrid.Proofs.Runs

/-!
# Bounds and comparisons

A range is tried on a version as the version is compared with the bound
(`Rule.range_covers_as_compared`). The two differ in one respect: a comparison takes
the numeric part of both sides, while the version of a bound is read as it is
written. It has a key nevertheless, so a hyphen in it cannot stand in one of the
segments that count. It is behind these, and they are the same in the numeric part
(`Version.Key.ofText_numericPart`).

An interval tries its second bound only if the first one admits the version. It
could as well try both (`Rule.covers_interval`), since a bound fails only for want
of a key of the version, and then both fail.
-/

namespace TestGrid

open Version Fallible

namespace Version

/-! ## Numeric parts -/

/-- The numeric part ends at the first hyphen, unless the version starts with it. -/
theorem numericPart_append_cons {front : Text} (hn : front ≠ []) (hf : '-' ∉ front)
    (behind : Text) : numericPart (front ++ '-' :: behind) = front := by
  have hkept : ∀ c ∈ front, (c != '-') = true := fun c hc => bne_iff_ne.2 fun h => hf (h ▸ hc)
  rw [numericPart.eq_def]
  split
  · next r h =>
    cases front with
    | nil => exact absurd rfl hn
    | cons c front =>
      cases h
      exact absurd List.mem_cons_self hf
  · rw [List.takeWhile_append_of_pos hkept, List.takeWhile_cons_of_neg (by decide), List.append_nil]

/-- A version is its numeric part, or this is what stands before the first hyphen. -/
theorem numericPart_cases (v : Text) :
    numericPart v = v ∨ ∃ behind, v = numericPart v ++ '-' :: behind := by
  cases hc : v.cut '-' with
  | none =>
    have hkept : ∀ c ∈ v, (c != '-') = true := fun c hm =>
      bne_iff_ne.2 fun h => Text.cut_eq_none_iff.1 hc (h ▸ hm)
    refine .inl ?_
    rw [numericPart.eq_def]
    split
    · rfl
    · exact List.takeWhile_eq_self_iff.2 hkept
  | some sides =>
    obtain ⟨front, behind⟩ := sides
    obtain ⟨rfl, hf⟩ := Text.cut_eq_some_iff.1 hc
    by_cases hn : front = []
    · exact .inl (by rw [hn]; rfl)
    · exact .inr ⟨behind, by rw [numericPart_append_cons hn hf]⟩

namespace Key

/-! ## Keys of numeric parts -/

/-- A character in a text is in one of its segments, unless it is a blank or a dot. The
    segments in front of this one are segments of what is in front of the character. -/
theorem exists_segments_append_cons {c : Char} (hb : isBlank c = false) (hc : c ≠ '.')
    (front behind : Text) : ∃ before segment after,
      segments (front ++ c :: behind) = before ++ segment :: after ∧ c ∈ segment ∧
        before <+: segments front := by
  obtain ⟨m, r, hm, ht⟩ := Text.exists_trim_append_cons hb front behind
  have hdot : ∀ x ∈ m ++ [c], decide (x = '.') = false := by
    intro x hx
    rw [decide_eq_false_iff_not]
    rintro rfl
    rcases List.mem_append.1 hx with hx | hx
    · exact absurd (hm _ hx) (by decide)
    · exact hc (List.mem_singleton.1 hx).symm
  -- The last piece in front goes on with the blanks and the character.
  obtain ⟨ps, p, q, qs, hp, hq, hpq⟩ :=
    Text.exists_pieces_append (· = '.') front.trim (m ++ [c])
  rw [Text.pieces_of_forall_not hdot] at hq
  cases hq
  obtain ⟨ps', p', q', qs', hp', -, ht'⟩ :=
    Text.exists_pieces_append (· = '.') (front.trim ++ (m ++ [c])) r
  obtain ⟨rfl, hlast⟩ := List.append_inj' (hpq.symm.trans hp') rfl
  cases hlast
  have htrim : (front ++ c :: behind).trim = front.trim ++ (m ++ [c]) ++ r := by
    rw [ht, List.append_assoc, List.append_assoc, List.singleton_append]
  refine ⟨ps.filter (!·.isEmpty), p ++ (m ++ [c]) ++ q', qs'.filter (!·.isEmpty), ?_, ?_, ?_⟩
  · rw [segments, htrim, ht', List.filter_append, List.filter_cons_of_pos (by simp)]
  · simp
  · rw [segments, hp, List.filter_append]
    exact List.prefix_append _ _

/-- A segment with a value is made of digits. -/
theorem isDigit_of_segmentValue {v segment : Text} {n : Nat} (h : segmentValue v segment = .ok n) :
    ∀ c ∈ segment, c.isDigit = true := by
  rw [segmentValue] at h
  split at h
  · next hn =>
    rw [Text.isNumeral, Bool.and_eq_true, List.all_eq_true] at hn
    exact hn.2
  · cases h

/-- The value of a segment does not depend on the version. -/
theorem segmentValue_eq_ok_iff {v w segment : Text} {n : Nat} :
    segmentValue v segment = .ok n ↔ segmentValue w segment = .ok n := by
  rw [segmentValue, segmentValue]
  split
  · exact Iff.rfl
  · simp only [reduceCtorEq]

/-- Versions with the same first segments have the same key. -/
theorem ofText_of_take {v w : Text} {k : Key} (h : ofText v = .ok k)
    (hs : (segments w).take width = (segments v).take width) : ofText w = .ok k := by
  obtain ⟨ns, hns, hk⟩ := bind_eq_ok.1 h
  rw [mapM_eq_ok] at hns
  refine bind_eq_ok.2 ⟨ns, mapM_eq_ok.2 ?_, hk⟩
  rw [hs]
  exact hns.imp fun _ _ => segmentValue_eq_ok_iff.1

/-- A version with a key has the key of its numeric part. -/
theorem ofText_numericPart {v : Text} {k : Key} (h : ofText v = .ok k) :
    ofText (numericPart v) = .ok k := by
  rcases numericPart_cases v with hv | ⟨behind, hv⟩
  · rwa [hv]
  · obtain ⟨before, segment, after, hs, hm, hp⟩ :=
      exists_segments_append_cons (c := '-') rfl (by decide) (numericPart v) behind
    rw [← hv] at hs
    have hwidth : width ≤ before.length := by
      -- Else the segment with the hyphen would have to be a number.
      by_contra hlt
      obtain ⟨ns, hns, -⟩ := bind_eq_ok.1 h
      have hmem : segment ∈ (segments v).take width := by
        rw [hs, List.take_append, List.mem_append]
        refine .inr ?_
        obtain ⟨n, hn⟩ : ∃ n, width - before.length = n + 1 := ⟨width - before.length - 1, by omega⟩
        rw [hn, List.take_succ_cons]
        exact List.mem_cons_self
      obtain ⟨n, hn⟩ := exists_mapM_eq_ok.1 ⟨ns, hns⟩ segment hmem
      exact absurd (isDigit_of_segmentValue hn '-' hm) (by decide)
    refine ofText_of_take h ?_
    obtain ⟨rest, hrest⟩ := hp
    rw [hs, ← hrest, List.take_append_of_le_length hwidth, List.take_append_of_le_length hwidth]

end Key

end Version

namespace Rule

/-! ## Trials -/

/-- Both bounds of an interval may be tried. -/
theorem covers_interval (b c : Bound) (v : Text) :
    (interval b c).covers v = do
      let first ← (range b).covers v
      let second ← (range c).covers v
      return first && second := by
  cases hk : Key.ofText (numericPart v) with
  | error f => simp [covers, bothAdmit, Bound.admits, hk]
  | ok k =>
    simp only [covers, bothAdmit, Bound.admits, hk, ok_bind, mapError_ok, pure_eq]
    cases b.limit.relation.holds k b.key <;> rfl

/-- A range fails on a version if and only if this has no key. -/
theorem range_fails_iff (b : Bound) (v : Text) :
    (range b).Fails v ↔ ∃ f, Key.ofText (numericPart v) = .error f := fails_iff

theorem interval_fails_iff (b c : Bound) (v : Text) :
    (interval b c).Fails v ↔ ∃ f, Key.ofText (numericPart v) = .error f := fails_iff

/-- A range is tried as the version is compared with the bound. -/
theorem range_covers_as_compared (b c : Bound) (v : Text) :
    (range b).covers v =
      (b.limit.relation.compare (.version v) (.version b.version)).mapError .version ∧
    (interval b c).covers v = (do
      let first ← (range b).covers v
      let second ← (range c).covers v
      return first && second) ∧
    ((∃ f, (interval b c).covers v = .error f) ↔ ∃ f, (range b).covers v = .error f) ∧
    ((∃ f, (interval b c).covers v = .error f) ↔ ∃ f, (range c).covers v = .error f) ∧
    ∀ front behind, front ≠ [] → '-' ∉ front → v = front ++ '-' :: behind →
      (range b).covers v = (range b).covers front ∧
        (interval b c).covers v = (interval b c).covers front := by
  have hkey : Key.ofText (numericPart b.version) = .ok b.key := Key.ofText_numericPart b.key_eq
  refine ⟨?_, covers_interval b c v, ?_, ?_, ?_⟩
  · rw [covers, Relation.compare, Operand.toKey, Operand.toKey, hkey]
    rfl
  · exact (interval_fails_iff b c v).trans (range_fails_iff b v).symm
  · exact (interval_fails_iff b c v).trans (range_fails_iff c v).symm
  · rintro front behind hn hf rfl
    have hpart : numericPart front = front := by
      rcases numericPart_cases front with h | ⟨r, h⟩
      · exact h
      · exact absurd (h ▸ List.mem_append_right _ List.mem_cons_self) hf
    rw [covers, covers, covers, covers, numericPart_append_cons hn hf, hpart]
    exact ⟨rfl, rfl⟩

/-- A hyphen in the fifth segment of a bound is in no comparison, and the second of two
    hyphens in a version is behind its numeric part. -/
theorem range_compared_at_hyphens :
    ∃ b c, Bound.of .atLeast " 1.2.3.4.5-x".toList = .ok b ∧ Bound.of .below "2".toList = .ok c ∧
      "1.9".toList ≠ [] ∧ '-' ∉ "1.9".toList ∧
      "1.9-rc-1".toList = "1.9".toList ++ '-' :: "rc-1".toList ∧
      (range b).covers "1.9-rc-1".toList = .ok true ∧
      (interval b c).covers "1.9-rc-1".toList = (interval b c).covers "1.9".toList := by
  obtain ⟨b, hb⟩ : ∃ b, Bound.of .atLeast " 1.2.3.4.5-x".toList = .ok b := ⟨_, rfl⟩
  obtain ⟨c, hc⟩ : ∃ c, Bound.of .below "2".toList = .ok c := ⟨_, rfl⟩
  have hn : "1.9".toList ≠ [] := by decide
  have hf : '-' ∉ "1.9".toList := by decide
  have hv : "1.9-rc-1".toList = "1.9".toList ++ '-' :: "rc-1".toList := rfl
  obtain ⟨hcompared, -, -, -, hfront⟩ := range_covers_as_compared b c "1.9-rc-1".toList
  refine ⟨b, c, hb, hc, hn, hf, hv, ?_, (hfront _ _ hn hf hv).2⟩
  cases hb
  exact hcompared

end Rule

end TestGrid
