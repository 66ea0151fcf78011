import Mathlib.Algebra.Group.Nat.Defs
import Mathlib.Data.List.GetD
import Mathlib.Logic.Relation
import TestGrid.Fault
import TestGrid.Proofs.Bounds
import TestGrid.Proofs.Joined

/-!
# Which versions have which key

A version has a key if its first four segments are made of digits, and else the
first of them that is not is at fault, as long as no number is too long. What
stands behind the fourth segment is never looked at. A key is written by a version
that has it, and the versions that have it are many
(`Version.Key.ofText_by_first_segments`).

They differ by *respelling*: a dot more where a segment ends anyway, a zero more in
front of a segment, or a further segment that is zero. Each of these puts in
characters that are no blanks, so that a trimmed version stays trimmed, and does
to the segments what does not change the numbers that count (`Respells.step`).
Blanks around the version come last: once they are there, a dot at the end would no
longer stand next to the version.
-/

namespace TestGrid

open Version Fallible

namespace Text

/-! ## Numerals and dots -/

/-- A zero in front of a run of digits adds nothing to the number. -/
theorem numeralValue_zero_cons (t : Text) : numeralValue ('0' :: t) = numeralValue t := rfl

/-- A run of digits writes a number below the power of ten with as many zeros. -/
theorem numeralValue_lt {t : Text} (h : ∀ c ∈ t, c.isDigit = true) :
    numeralValue t < 10 ^ t.length := by
  induction t with
  | nil => exact Nat.one_pos
  | cons c t ih =>
    rw [List.forall_mem_cons] at h
    have hc : c.toNat ≤ 57 := by
      have := h.1
      simp only [Char.isDigit, UInt32.le_iff_toNat_le, Bool.and_eq_true, decide_eq_true_eq] at this
      exact this.2
    have hv : numeralValue (c :: t) = 10 ^ t.length * (c.toNat - 48) + numeralValue t := by
      rw [numeralValue, Nat.ofDigitChars_cons, Nat.ofDigitChars_eq_ofDigitChars_zero, Nat.mul_zero,
        Nat.zero_add]
      rfl
    calc numeralValue (c :: t) < 10 ^ t.length * (c.toNat - 48) + 10 ^ t.length := by
          rw [hv]
          exact Nat.add_lt_add_left (ih h.2) _
      _ = 10 ^ t.length * (c.toNat - 48 + 1) := (Nat.mul_succ _ _).symm
      _ ≤ 10 ^ t.length * 10 := Nat.mul_le_mul_left _ (by omega)
      _ = 10 ^ (c :: t).length := (Nat.pow_succ ..).symm

/-- The last character of the text, if it has one, is a dot: no segment is left open. -/
def EndsAtDot (t : Text) : Prop := ∀ c, t.getLast? = some c → c = '.'

/-- The first character of the text, if it has one, is a dot: it goes on with no
    segment. -/
def StartsAtDot (t : Text) : Prop := ∀ c, t.head? = some c → c = '.'

end Text

namespace Version

/-- The same fault in another version. -/
def KeyFault.withVersion (version : Text) : KeyFault → KeyFault
  | notNumeric segment _ => notNumeric segment version
  | tooLong digits => tooLong digits

namespace Key

/-! ## Segments of a text -/

/-- The segments of a text as it stands. -/
def parts (t : Text) : List Text := (t.pieces (· = '.')).filter (!·.isEmpty)

theorem segments_of_trimmed {v : Text} (h : v.Trimmed) : segments v = parts v := by
  rw [segments, h.trim_eq, parts]

/-- A dot parts the segments in front from those behind. -/
theorem parts_append_dot (a b : Text) : parts (a ++ '.' :: b) = parts a ++ parts b := by
  rw [parts, Text.pieces_append_cons (decide_eq_true rfl), List.filter_append]
  rfl

/-- So does any place where a dot stands already, or where the text starts or ends. -/
theorem parts_append {a b : Text} (h : a.EndsAtDot ∨ b.StartsAtDot) :
    parts (a ++ b) = parts a ++ parts b := by
  rcases h with h | h
  · rcases List.eq_nil_or_concat' a with rfl | ⟨r, c, rfl⟩
    · rfl
    · obtain rfl : c = '.' := h c List.getLast?_concat
      rw [List.append_assoc, List.singleton_append, parts_append_dot, parts_append_dot]
      exact congrArg (· ++ parts b) (List.append_nil _).symm
  · cases b with
    | nil =>
      rw [List.append_nil]
      exact (List.append_nil _).symm
    | cons c b =>
      obtain rfl : c = '.' := h c rfl
      rw [parts_append_dot]
      exact congrArg (parts a ++ ·) (parts_append_dot [] b).symm

/-- A text without dots is a segment. -/
theorem parts_of_not_mem {s : Text} (hn : s ≠ []) (hs : '.' ∉ s) : parts s = [s] := by
  have hdot : ∀ c ∈ s, decide (c = '.') = false := fun c hc =>
    decide_eq_false fun he => hs (he ▸ hc)
  rw [parts, Text.pieces_of_forall_not hdot]
  simp [hn]

/-- Runs of digits that are joined around dots are the segments of the result. -/
theorem segments_joined {ss : List Text} (h : ∀ s ∈ ss, s ≠ [] ∧ ∀ c ∈ s, c.isDigit = true) :
    segments (Text.joined ['.'] ss) = ss := by
  have htrim : (Text.joined ['.'] ss).Trimmed := by
    refine (Text.trimmed_joined (fun s hs => ⟨(h s hs).1, ?_⟩) _).1
    exact Text.trimmed_of_forall_not fun c hc => isBlank_of_isDigit ((h s hs).2 c hc)
  rw [segments_of_trimmed htrim, parts]
  cases ss with
  | nil => rfl
  | cons s ss =>
    rw [Text.pieces_joined (decide_eq_true rfl) (List.cons_ne_nil s ss) fun q hq x hx =>
      decide_eq_false (ne_of_isDigit ((h q hq).2 x hx) rfl)]
    exact List.filter_eq_self.2 fun q hq => by simp [(h q hq).1]

/-! ## Values of segments -/

/-- A segment has a value if it is made of digits and is not too long. -/
theorem segmentValue_eq_ok_iff_numeral {v s : Text} {n : Nat} :
    segmentValue v s = .ok n ↔
      s.isNumeral = true ∧ s.length ≤ digitLimit ∧ s.numeralValue = n := by
  rw [segmentValue]
  split
  · next hs =>
    split
    · next hl => simp [hs, hl]
    · next hl => simp [hl]
  · next hs => simp [hs]

/-- The fault of a segment names the version that it is in; apart from this, its outcome
    is the same in all versions. -/
theorem segmentValue_withVersion (v w s : Text) :
    segmentValue w s = (segmentValue v s).mapError (·.withVersion w) := by
  rw [segmentValue, segmentValue]
  split
  · split <;> rfl
  · rfl

/-- No number among the first segments is too long. -/
def Limited (v : Text) : Prop :=
  ∀ s ∈ (segments v).take width, s.isNumeral = true → s.length ≤ digitLimit

/-- A segment is not empty, so it is a number as soon as it has only digits. -/
theorem isNumeral_iff {v s : Text} (h : s ∈ (segments v).take width) :
    s.isNumeral = true ↔ ∀ c ∈ s, c.isDigit = true := by
  have hn : (!s.isEmpty) = true := (List.mem_filter.1 (List.mem_of_mem_take h)).2
  rw [Text.isNumeral, hn, Bool.true_and, List.all_eq_true]

/-- If no number is too long, a segment has a value as soon as it has only digits. -/
theorem exists_segmentValue_iff {v s : Text} (hv : Limited v) (h : s ∈ (segments v).take width) :
    (∃ n, segmentValue v s = .ok n) ↔ ∀ c ∈ s, c.isDigit = true := by
  rw [← isNumeral_iff h]
  simp only [segmentValue_eq_ok_iff_numeral]
  constructor
  · rintro ⟨n, hs, -⟩
    exact hs
  · intro hs
    exact ⟨_, hs, hv s h hs, rfl⟩

/-- And else it is no number. -/
theorem segmentValue_eq_error_iff {v s : Text} (hv : Limited v) (h : s ∈ (segments v).take width)
    (f : KeyFault) : segmentValue v s = .error f ↔
      (¬∀ c ∈ s, c.isDigit = true) ∧ f = .notNumeric s v := by
  rw [← isNumeral_iff h, segmentValue]
  split
  · next hs => simp [hs, hv s h hs]
  · next hs => simp [hs, eq_comm]

/-- The value of a segment can be written with as many digits as a segment may have. -/
theorem length_ofNat_of_segmentValue {v s : Text} {n : Nat} (h : segmentValue v s = .ok n) :
    (Text.ofNat n).length ≤ digitLimit := by
  obtain ⟨-, hl, rfl⟩ := segmentValue_eq_ok_iff_numeral.1 h
  refine (Nat.length_toDigits_le_iff (by decide) (by decide)).2 ?_
  exact Nat.lt_of_lt_of_le (Text.numeralValue_lt (isDigit_of_segmentValue h))
    (Nat.pow_le_pow_right (by decide) hl)

/-! ## Keys -/

theorem ofText_eq_ok_iff {v : Text} {k : Key} : ofText v = .ok k ↔
    ∃ ns, ((segments v).take width).mapM (segmentValue v) = .ok ns ∧ ofSegments ns = k := by
  rw [ofText, bind_eq_ok]
  simp

/-- The outcome depends on the first segments only, apart from the name of the version in
    a fault. -/
theorem ofText_withVersion {v w : Text} (h : (segments w).take width = (segments v).take width) :
    ofText w = (ofText v).mapError (·.withVersion w) := by
  rw [ofText, ofText, h, mapM_mapError (segmentValue_withVersion v w)]
  cases ((segments v).take width).mapM (segmentValue v) <;> rfl

/-- Segments that do as well make the same key. -/
theorem ofText_of_forall₂ {v w : Text} {k : Key} (h : ofText v = .ok k)
    (hs : List.Forall₂ (fun s s' => ∀ n, segmentValue v s = .ok n → segmentValue w s' = .ok n)
      (segments v) (segments w)) : ofText w = .ok k := by
  obtain ⟨ns, hns, hk⟩ := ofText_eq_ok_iff.1 h
  exact ofText_eq_ok_iff.2 ⟨ns, mapM_of_forall₂ (List.forall₂_take width hs) hns, hk⟩

/-- A missing segment counts as zero, so a zero may as well be there. -/
theorem ofSegments_append_zero (ns : List Nat) : ofSegments (ns ++ [0]) = ofSegments ns := by
  have hget (i : Nat) : (ns ++ [0]).getD i 0 = ns.getD i 0 := by
    rcases Nat.lt_trichotomy i ns.length with h | rfl | h
    · exact List.getD_append _ _ _ _ h
    · simp
    · rw [List.getD_eq_default _ _ (by simpa using Nat.succ_le_of_lt h),
        List.getD_eq_default _ _ h.le]
  rw [ofSegments, ofSegments, hget, hget, hget, hget]

/-- A last segment that is zero does not change the key. -/
theorem ofText_of_append_zero {v w : Text} {k : Key} (h : ofText v = .ok k)
    (hs : segments w = segments v ++ [['0']]) : ofText w = .ok k := by
  rcases Nat.lt_or_ge (segments v).length width with hl | hl
  · -- The segment is one of the first, which are all of the segments.
    obtain ⟨ns, hns, rfl⟩ := ofText_eq_ok_iff.1 h
    refine ofText_eq_ok_iff.2 ⟨ns ++ [0], ?_, ofSegments_append_zero ns⟩
    rw [List.take_of_length_le hl.le, mapM_eq_ok] at hns
    rw [hs, List.take_of_length_le (by simpa using Nat.succ_le_of_lt hl), mapM_eq_ok]
    refine List.rel_append (hns.imp fun _ _ => segmentValue_eq_ok_iff.1) (.cons ?_ .nil)
    exact segmentValue_eq_ok_iff_numeral.2 ⟨rfl, by decide, rfl⟩
  · exact ofText_of_take h (by rw [hs, List.take_append_of_le_length hl])

/-- Numbers joined around dots have the key of these numbers. -/
theorem ofText_joined {ns : List Nat} (hw : ns.length ≤ width)
    (h : ∀ n ∈ ns, (Text.ofNat n).length ≤ digitLimit) :
    ofText (Text.joined ['.'] (ns.map Text.ofNat)) = .ok (ofSegments ns) := by
  have hs : segments (Text.joined ['.'] (ns.map Text.ofNat)) = ns.map Text.ofNat := by
    refine segments_joined (List.forall_mem_map.2 fun n _ => ⟨Nat.toDigits_ne_nil, fun c hc => ?_⟩)
    exact Nat.isDigit_of_mem_toDigits (by decide) (by decide) hc
  refine ofText_eq_ok_iff.2 ⟨ns, ?_, rfl⟩
  rw [hs, List.take_of_length_le (by rwa [List.length_map]), mapM_eq_ok, List.forall₂_map_left_iff,
    List.forall₂_same]
  exact fun n hn =>
    segmentValue_eq_ok_iff_numeral.2 ⟨Text.isNumeral_ofNat n, h n hn, Text.numeralValue_ofNat n⟩

/-- The version that writes a key has this key. -/
theorem ofText_toText {v : Text} {k : Key} (h : ofText v = .ok k) : ofText k.toText = .ok k := by
  obtain ⟨ns, hns, rfl⟩ := ofText_eq_ok_iff.1 h
  have hlimit (i : Nat) : (Text.ofNat (ns.getD i 0)).length ≤ digitLimit := by
    rw [List.getD_eq_getElem?_getD]
    cases hi : ns[i]? with
    | none => exact show 1 ≤ digitLimit by decide
    | some n =>
      obtain ⟨s, -, hs⟩ := exists_of_mem_mapM hns (List.mem_of_getElem? hi)
      exact length_ofNat_of_segmentValue hs
  have hnumbers : ∀ n ∈ [0, 1, 2, 3].map (ns.getD · 0), (Text.ofNat n).length ≤ digitLimit :=
    List.forall_mem_map.2 fun i _ => hlimit i
  have hkey := ofText_joined (le_refl 4) hnumbers
  exact hkey

/-! ## Respelling -/

/-- One version is another one with a dot more, where a segment ends anyway, with a zero
    more in front of a segment that may have one more digit, or with a segment more that
    is zero. -/
inductive Respells : Text → Text → Prop
  | dot {a b : Text} (h : a.EndsAtDot ∨ b.StartsAtDot) : Respells (a ++ b) (a ++ '.' :: b)
  | zero {a s b : Text} (ha : a.EndsAtDot) (hs : s ≠ [] ∧ '.' ∉ s) (hl : s.length < digitLimit)
      (hb : b.StartsAtDot) : Respells (a ++ (s ++ b)) (a ++ '0' :: (s ++ b))
  | zeroBehind (v : Text) : Respells v (v ++ ['.', '0'])

/-- A segment with a zero in front. -/
theorem segmentValue_zero_cons {v w s : Text} {n : Nat} (hl : s.length < digitLimit)
    (h : segmentValue v s = .ok n) : segmentValue w ('0' :: s) = .ok n := by
  obtain ⟨-, -, hn⟩ := segmentValue_eq_ok_iff_numeral.1 h
  refine segmentValue_eq_ok_iff_numeral.2 ⟨?_, hl, (Text.numeralValue_zero_cons s).trans hn⟩
  rw [Text.isNumeral, Bool.and_eq_true, List.all_eq_true]
  exact ⟨rfl, List.forall_mem_cons.2 ⟨rfl, isDigit_of_segmentValue h⟩⟩

/-- One respelling keeps a trimmed version trimmed, and its key. -/
theorem Respells.step {v w : Text} {k : Key} (h : Respells v w) (hv : v.Trimmed)
    (hk : ofText v = .ok k) : w.Trimmed ∧ ofText w = .ok k := by
  cases h with
  | @dot a b h =>
    -- The segments stay as they are.
    have hw : (a ++ '.' :: b).Trimmed := hv.insert rfl
    refine ⟨hw, ofText_of_take hk ?_⟩
    rw [segments_of_trimmed hw, segments_of_trimmed hv, parts_append_dot, parts_append h]
  | @zero a s b ha hs hl hb =>
    -- One segment goes on in front, and has the same value.
    have hw : (a ++ '0' :: (s ++ b)).Trimmed := hv.insert rfl
    have hparts {s : Text} (hs : s ≠ [] ∧ '.' ∉ s) :
        parts (a ++ (s ++ b)) = parts a ++ (s :: parts b) := by
      rw [parts_append (.inl ha), parts_append (.inr hb), parts_of_not_mem hs.1 hs.2,
        List.singleton_append]
    refine ⟨hw, ofText_of_forall₂ hk ?_⟩
    have hsame (ss : List Text) : List.Forall₂ (fun s' s'' => ∀ n,
        segmentValue (a ++ (s ++ b)) s' = .ok n →
          segmentValue (a ++ '0' :: (s ++ b)) s'' = .ok n) ss ss :=
      List.forall₂_same.2 fun _ _ _ => segmentValue_eq_ok_iff.1
    rw [segments_of_trimmed hw, segments_of_trimmed hv, hparts hs, ← List.cons_append,
      hparts ⟨List.cons_ne_nil _ _, by simp [hs.2]⟩]
    exact List.rel_append (hsame _) (.cons (fun _ => segmentValue_zero_cons hl) (hsame _))
  | zeroBehind =>
    -- A segment is added, which may be one of the first.
    have hw : (v ++ ['.', '0']).Trimmed := by
      refine Text.Trimmed.insert ?_ rfl
      exact hv.append (Text.trimmed_of_forall_not (by simp; rfl))
    refine ⟨hw, ofText_of_append_zero hk ?_⟩
    rw [segments_of_trimmed hw, segments_of_trimmed hv, parts_append_dot]
    rfl

/-- So do any respellings one after the other. -/
theorem ofText_of_respelled {v w : Text} {k : Key} (h : Relation.ReflTransGen Respells v w)
    (hv : v.Trimmed) (hk : ofText v = .ok k) : w.Trimmed ∧ ofText w = .ok k := by
  induction h with
  | refl => exact ⟨hv, hk⟩
  | tail _ h ih => exact h.step ih.1 ih.2

/-- Blanks around a version do not change its key. -/
theorem ofText_of_margins {v front behind : Text} {k : Key} (h : ofText v = .ok k)
    (hf : ∀ c ∈ front, isBlank c = true) (hb : ∀ c ∈ behind, isBlank c = true) :
    ofText (front ++ v ++ behind) = .ok k := by
  refine ofText_of_take h ?_
  rw [segments, Text.trim_append_blank _ hb, Text.trim_append_of_blank hf, segments]

/-- Keys, from the versions that have them:

    * if no number among the first segments of a version is too long, it has a key just if
      all of them are made of digits; else the first that is not is at fault;
    * versions with the same first segments have the same outcome;
    * four numbers around dots have the key of these numbers, and the version that writes
      a key has this key;
    * respellings of a trimmed version have its key, also between blanks. -/
theorem ofText_by_first_segments (v : Text) :
    (Limited v →
      ((∃ k, ofText v = .ok k) ↔
        ∀ s ∈ (segments v).take width, ∀ c ∈ s, c.isDigit = true) ∧
      ∀ f, ofText v = .error f ↔ ∃ before segment behind,
        (segments v).take width = before ++ segment :: behind ∧
          (∀ s ∈ before, ∀ c ∈ s, c.isDigit = true) ∧ (¬∀ c ∈ segment, c.isDigit = true) ∧
          f = .notNumeric segment v ∧ (Fault.version f).category? = some .version ∧
          (Fault.version f).message = s!"Invalid version segment '{segment}' in version: {v}") ∧
    (∀ w, (segments w).take width = (segments v).take width →
      ofText w = (ofText v).mapError (·.withVersion w)) ∧
    (∀ a b c d : Nat, (∀ n ∈ [a, b, c, d], (Text.ofNat n).length ≤ digitLimit) →
      ofText (Text.joined ['.'] ([a, b, c, d].map Text.ofNat)) = .ok ⟨a, b, c, d⟩) ∧
    ∀ k, ofText v = .ok k → ofText k.toText = .ok k ∧
      (v.Trimmed → ∀ w, Relation.ReflTransGen Respells v w →
        ∀ front behind : Text, (∀ c ∈ front, isBlank c = true) → (∀ c ∈ behind, isBlank c = true) →
          ofText (front ++ w ++ behind) = .ok k) := by
  refine ⟨fun hl => ⟨?_, fun f => ?_⟩, fun w => ofText_withVersion, fun a b c d h => ?_,
    fun k hk => ⟨ofText_toText hk, fun hv w hw front behind => ?_⟩⟩
  · have hvalues : (∃ k, ofText v = .ok k) ↔
        ∃ ns, ((segments v).take width).mapM (segmentValue v) = .ok ns := by
      simp [ofText_eq_ok_iff]
    rw [hvalues, exists_mapM_eq_ok]
    exact forall₂_congr fun s hs => exists_segmentValue_iff hl hs
  · rw [ofText_eq_error_iff]
    refine exists₃_congr fun before segment behind => and_congr_right fun hs => ?_
    have hmem : ∀ s ∈ before ++ segment :: behind, s ∈ (segments v).take width := hs ▸ fun _ => id
    rw [List.forall_mem_append, List.forall_mem_cons] at hmem
    obtain ⟨hbefore, hsegment, -⟩ := hmem
    refine and_congr (forall₂_congr fun s h => exists_segmentValue_iff hl (hbefore s h)) ?_
    rw [segmentValue_eq_error_iff hl hsegment]
    refine and_congr_right fun _ => ⟨?_, And.left⟩
    rintro rfl
    exact ⟨rfl, rfl, rfl⟩
  · exact ofText_joined (le_refl 4) h
  · exact ofText_of_margins (ofText_of_respelled hw hv hk).2

/-- A fifth segment may be anything, and a version is respelled in front, between its
    segments and behind. -/
theorem key_of_respelled_release :
    let v : Text := "1..02.3.4.rc 1".toList
    let w : Text := ".1..002.3.4.rc 1.0".toList
    let bad : Text := "7.x.8-y".toList
    Limited v ∧ v.Trimmed ∧ Relation.ReflTransGen Respells v w ∧
      (∀ s ∈ (segments v).take width, ∀ c ∈ s, c.isDigit = true) ∧
      ofText "1.2.3.4".toList = .ok ⟨1, 2, 3, 4⟩ ∧
      ofText (" \t".toList ++ w ++ "\n".toList) = .ok ⟨1, 2, 3, 4⟩ ∧
      Limited bad ∧ ofText bad = .error (.notNumeric "x".toList bad) := by
  intro v w bad
  have hk : ofText v = .ok ⟨1, 2, 3, 4⟩ := rfl
  have hl : Limited v := by unfold Limited; decide
  have hbad : Limited bad := by unfold Limited; decide
  have hv : v.Trimmed := ⟨fun c hc => by cases hc; rfl, fun c hc => by cases hc; rfl⟩
  have hw : Relation.ReflTransGen Respells v w :=
    .trans (.single (Respells.dot (a := []) (b := v) (.inl (by simp [Text.EndsAtDot])))) <|
      .tail (.single (Respells.zero (a := ".1..".toList) (s := "02".toList)
        (b := ".3.4.rc 1".toList) (fun c hc => by cases hc; rfl) (by decide) (by decide)
        (fun c hc => by cases hc; rfl))) (.zeroBehind _)
  obtain ⟨hdomain, -, hwritten, hrespelled⟩ := ofText_by_first_segments v
  refine ⟨hl, hv, hw, (hdomain hl).1.1 ⟨_, hk⟩, hwritten 1 2 3 4 (by decide),
    (hrespelled _ hk).2 hv w hw _ _ (List.all_eq_true.1 rfl) (List.all_eq_true.1 rfl), hbad, ?_⟩
  have hseven : ∀ s ∈ ["7".toList], ∀ c ∈ s, c.isDigit = true :=
    List.forall_mem_singleton.2 (List.all_eq_true.1 rfl)
  have hletter : ¬∀ c ∈ "x".toList, c.isDigit = true := fun h =>
    absurd (h 'x' (by decide)) (by decide)
  exact (((ofText_by_first_segments bad).1 hbad).2 _).2
    ⟨["7".toList], "x".toList, ["8-y".toList], rfl, hseven, hletter, rfl, rfl, rfl⟩

end Key

end Version

end TestGrid
