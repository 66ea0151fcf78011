import TestGrid.Proofs.Fallible
import TestGrid.Proofs.Pieces
import TestGrid.Version.Key

/-!
# Runs of digits

A number may have only so many digits (`Version.digitLimit`). That a segment of
a version has more of them is the one fault that does not lie in the form of
the version, and it takes as long a run of digits in the text from which the
version comes (`Version.Key.hasRun_of_tooLong`).
-/

namespace TestGrid

open Fallible

namespace Text

/-- So many digits stand next to each other in the text. -/
def HasRun (n : Nat) (t : Text) : Prop :=
  ∃ run : Text, run.length = n ∧ (∀ c ∈ run, c.isDigit = true) ∧ run <:+: t

/-- A run of digits in a part of a text is one in the text. -/
theorem HasRun.mono {n : Nat} {t t' : Text} (h : t.HasRun n) (ht : t <:+: t') : t'.HasRun n := by
  obtain ⟨run, hl, hd, hi⟩ := h
  exact ⟨run, hl, hd, hi.trans ht⟩

/-- No run of digits in the text is too long for a number. -/
def Countable (t : Text) : Prop := ∀ n, t.HasRun n → n ≤ Version.digitLimit

/-- A text that is short enough has no such run. -/
theorem countable_of_length_le {t : Text} (h : t.length ≤ Version.digitLimit) : t.Countable := by
  rintro _ ⟨run, rfl, -, hi⟩
  exact Nat.le_trans hi.length_le h

end Text

/-- A digit is no other character. -/
theorem ne_of_isDigit {c d : Char} (hc : c.isDigit = true) (hd : d.isDigit = false) : c ≠ d :=
  fun h => Bool.eq_false_iff.1 hd (h ▸ hc)

/-- A digit is no blank. -/
theorem isBlank_of_isDigit {c : Char} (h : c.isDigit = true) : isBlank c = false := by
  have hn : 48 ≤ c.toNat ∧ c.toNat ≤ 57 := by
    simpa [Char.isDigit, UInt32.le_iff_toNat_le] using h
  simp only [isBlank, Bool.or_eq_false_iff, Bool.and_eq_false_iff, decide_eq_false_iff_not,
    beq_eq_false_iff_ne, ne_eq]
  omega

namespace Version

/-- The numeric part begins the version. -/
theorem numericPart_isPrefix (v : Text) : numericPart v <+: v := by
  rw [numericPart.eq_def]
  split
  · exact List.prefix_rfl
  · exact List.takeWhile_prefix _

/-- A number has no qualifier. -/
theorem numericPart_of_digits {v : Text} (hd : ∀ c ∈ v, c.isDigit = true) :
    numericPart v = v := by
  have hhyphen : ∀ c ∈ v, (c != '-') = true := fun c hc =>
    bne_iff_ne.2 (ne_of_isDigit (hd c hc) rfl)
  rw [numericPart.eq_def]
  split
  · rfl
  · exact List.takeWhile_eq_self_iff.2 hhyphen

namespace Key

/-- A segment stands in the version. -/
theorem infix_of_mem_segments {v segment : Text} (h : segment ∈ segments v) : segment <:+: v :=
  (Text.infix_of_mem_pieces (List.mem_of_mem_filter h)).trans (Text.trim_infix v)

theorem segmentValue_eq_tooLong {v segment : Text} {n : Nat}
    (h : segmentValue v segment = .error (.tooLong n)) :
    segment.length = n ∧ digitLimit < n ∧ ∀ c ∈ segment, c.isDigit = true := by
  rw [segmentValue] at h
  split at h
  · next hn =>
    split at h
    · cases h
    · next hl =>
      cases h
      rw [Text.isNumeral, Bool.and_eq_true, List.all_eq_true] at hn
      exact ⟨rfl, Nat.lt_of_not_le hl, hn.2⟩
  · cases h

/-- A version has no key if and only if one of its first segments has no value;
    the first such segment is at fault. -/
theorem ofText_eq_error_iff {v : Text} {f : KeyFault} :
    ofText v = .error f ↔ ∃ before segment behind,
      (segments v).take width = before ++ segment :: behind ∧
        (∀ s ∈ before, ∃ n, segmentValue v s = .ok n) ∧ segmentValue v segment = .error f := by
  rw [ofText, bind_eq_error, mapM_eq_error]
  constructor
  · rintro (h | ⟨ns, -, h⟩)
    · exact h
    · cases h
  · exact .inl

/-- A version has a segment with too many digits only if it has as long a run of
    them. -/
theorem hasRun_of_tooLong {v : Text} {n : Nat} (h : ofText v = .error (.tooLong n)) :
    digitLimit < n ∧ v.HasRun n := by
  obtain ⟨before, segment, behind, hs, -, hv⟩ := ofText_eq_error_iff.1 h
  obtain ⟨hl, hn, hd⟩ := segmentValue_eq_tooLong hv
  have hm : segment ∈ (segments v).take width :=
    hs ▸ List.mem_append_right _ List.mem_cons_self
  exact ⟨hn, segment, hl, hd, infix_of_mem_segments (List.mem_of_mem_take hm)⟩

/-- A version that is one number with too many digits has no key. -/
theorem ofText_of_long {v : Text} (hd : ∀ c ∈ v, c.isDigit = true) (h : digitLimit < v.length) :
    ofText v = .error (.tooLong v.length) := by
  have hne : v ≠ [] := List.ne_nil_of_length_pos (Nat.zero_lt_of_lt h)
  have hdot : ∀ c ∈ v, decide (c = '.') = false := fun c hc =>
    decide_eq_false (ne_of_isDigit (hd c hc) rfl)
  have hs : segments v = [v] := by
    rw [segments, Text.trim_of_forall_not fun c hc => isBlank_of_isDigit (hd c hc),
      Text.pieces_of_forall_not hdot]
    simp [hne]
  have hnum : v.isNumeral = true := by
    rw [Text.isNumeral, Bool.and_eq_true, List.all_eq_true]
    exact ⟨by simp [hne], hd⟩
  have hv : segmentValue v v = .error (.tooLong v.length) := by
    rw [segmentValue, if_pos hnum, if_neg (Nat.not_le_of_lt h)]
  exact ofText_eq_error_iff.2
    ⟨[], v, [], by rw [hs]; rfl, fun _ hs => absurd hs List.not_mem_nil, hv⟩

/-- A version made of digits and dots has a key, unless a segment has too many
    digits. -/
theorem ofText_of_digits {v : Text} (h : ∀ c ∈ v, c.isDigit = true ∨ c = '.') :
    (∃ k, ofText v = .ok k) ∨ ∃ n, ofText v = .error (.tooLong n) := by
  rcases exists_ok_or_error (ofText v) with hk | ⟨f, hf⟩
  · exact .inl hk
  · obtain ⟨before, segment, behind, hs, -, hv⟩ := ofText_eq_error_iff.1 hf
    have hm : segment ∈ segments v :=
      List.mem_of_mem_take (hs ▸ List.mem_append_right _ List.mem_cons_self)
    have hnum : segment.isNumeral = true := by
      rw [Text.isNumeral, Bool.and_eq_true, List.all_eq_true]
      refine ⟨(List.mem_filter.1 hm).2, fun c hc => ?_⟩
      have hdot : c ≠ '.' := by
        simpa using Text.sep_of_mem_pieces (List.mem_of_mem_filter hm) hc
      exact (h c ((infix_of_mem_segments hm).subset hc)).resolve_right hdot
    rw [segmentValue, if_pos hnum] at hv
    split at hv
    · cases hv
    · cases hv
      exact .inr ⟨_, hf⟩

end Key

end Version

end TestGrid
