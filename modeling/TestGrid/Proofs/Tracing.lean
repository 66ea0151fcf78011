import Mathlib.Data.List.Induction
import TestGrid.Proofs.Course

/-!
# Who stops the tracing

A meter that has started the tracing owns it until it is closed. It does not
notice when the tracing that it has started is stopped from outside; so it may go
on owning a tracing that somebody else has started since.

What a meter owns is known from the past (`owner?_ofSteps_eq_some_iff`): it was made
while the tracing was off, and no meter of its name has been made or closed since.
Whose the tracing is that goes on is known too: as long as it has not been off, it
is that of the owner (`tracing_after_of_on`), and behind a moment at which it was
off it is that of somebody who came later (`Later.after`).

* `stops_others_iff`: when a closed meter stops the tracing of somebody else. It
  never does if the tracing is not stopped from outside;
* `tracing_on_iff_one_owner`: if it is neither started nor stopped from outside, and
  no meter takes the place of another one, the tracing is on if and only if one
  meter owns it, and off for good once all meters are closed.
-/

namespace TestGrid.Bench

/-- The bench after steps from the start, when there is no meter and the tracing is
    off. -/
def ofSteps (steps : List Step) : Bench := ({} : Bench).after steps

theorem ofSteps_concat (past : List Step) (s : Step) :
    ofSteps (past ++ [s]) = s.take (ofSteps past) := after_concat _ past s

theorem ofSteps_append (past more : List Step) :
    ofSteps (past ++ more) = (ofSteps past).after more := after_append _ past more

/-! ## Owners and the past -/

/-- A step of a past with one step more is the last one, or stands in the past. -/
theorem concat_eq_append_cons_iff {past before since : List Step} {s s' : Step} :
    past ++ [s] = before ++ s' :: since ↔ (past = before ∧ s = s' ∧ since = []) ∨
      ∃ since', since = since' ++ [s] ∧ past = before ++ s' :: since' := by
  constructor
  · intro h
    rcases List.eq_nil_or_concat since with rfl | ⟨since', s'', rfl⟩
    · obtain ⟨rfl, hs⟩ := List.append_inj' h rfl
      exact .inl ⟨rfl, List.singleton_inj.1 hs, rfl⟩
    · rw [List.concat_eq_append, ← List.cons_append, ← List.append_assoc] at h
      obtain ⟨rfl, hs⟩ := List.append_inj' h rfl
      obtain rfl := List.singleton_inj.1 hs
      exact .inr ⟨since', List.concat_eq_append, rfl⟩
  · rintro (⟨rfl, rfl, rfl⟩ | ⟨since', rfl, rfl⟩)
    · rfl
    · simp

/-- A meter owns the tracing if and only if it was made while the tracing was off, and no
    meter of its name has been made or closed since. Its number tells how many meters had
    been made before it. -/
theorem owner?_ofSteps_eq_some_iff {past : List Step} {name : Text} {n : Nat} :
    (ofSteps past).owner? name = some n ↔
      ∃ before since, past = before ++ Step.make name true :: since ∧
        (ofSteps before).tracing = none ∧ (ofSteps before).made = n ∧
        ∀ s ∈ since, ¬s.Touches name := by
  induction past using List.reverseRecOn with
  | nil =>
    refine ⟨fun h => (nomatch h), ?_⟩
    rintro ⟨before, since, h, -⟩
    exact absurd h.symm (List.append_ne_nil_of_right_ne_nil _ (List.cons_ne_nil _ _))
  | append_singleton past s ih =>
    rw [ofSteps_concat, owner?_take_eq_some_iff]
    simp only [concat_eq_append_cons_iff]
    constructor
    · rintro (⟨hs, h⟩ | ⟨rfl, ht, hn⟩)
      · obtain ⟨before, since, he, ht, hn, hsince⟩ := ih.1 h
        refine ⟨before, since ++ [s], .inr ⟨since, rfl, he⟩, ht, hn, fun s' hs' => ?_⟩
        rcases List.mem_append.1 hs' with hs' | hs'
        · exact hsince s' hs'
        · exact List.mem_singleton.1 hs' ▸ hs
      · exact ⟨past, [], .inl ⟨rfl, rfl, rfl⟩, ht, hn, fun _ hm => absurd hm List.not_mem_nil⟩
    · rintro ⟨before, since, ⟨rfl, rfl, rfl⟩ | ⟨since', rfl, rfl⟩, ht, hn, hsince⟩
      · exact .inr ⟨rfl, ht, hn⟩
      · refine .inl ⟨hsince s (List.mem_append_right _ List.mem_cons_self), ?_⟩
        exact ih.2 ⟨before, since', rfl, ht, hn,
          fun s' hs' => hsince s' (List.mem_append_left _ hs')⟩

/-- The numbers of meters that own something are below that of the next meter, and no two
    of them are equal. -/
structure Numbered (b : Bench) : Prop where
  below : ∀ {name n}, b.owner? name = some n → n < b.made
  distinct : ∀ {name name' n}, b.owner? name = some n → b.owner? name' = some n → name = name'

theorem Numbered.take {b : Bench} (h : b.Numbered) (s : Step) : (s.take b).Numbered := by
  constructor
  · intro name n hn
    rcases owner?_take_eq_some_iff.1 hn with ⟨-, hn⟩ | ⟨rfl, -, rfl⟩
    · exact Nat.lt_of_lt_of_le (h.below hn) (made_le_made_take s b)
    · exact Nat.lt_succ_self _
  · intro name name' n hn hn'
    rcases owner?_take_eq_some_iff.1 hn with ⟨-, hn⟩ | ⟨rfl, -, rfl⟩ <;>
      rcases owner?_take_eq_some_iff.1 hn' with ⟨-, hn'⟩ | ⟨he, -, hb⟩
    · exact h.distinct hn hn'
    · exact absurd (h.below hn) (hb ▸ Nat.lt_irrefl _)
    · exact absurd (h.below hn') (Nat.lt_irrefl _)
    · cases he
      rfl

theorem numbered_ofSteps (past : List Step) : (ofSteps past).Numbered :=
  after_induction ⟨fun h => (nomatch h), fun h => (nomatch h)⟩ fun s _ _ h => h.take s

/-! ## Whose the tracing is -/

/-- As long as the tracing is on, it is that of the one who has started it. -/
theorem tracing_after_of_on {b : Bench} {starter : Starter} (h : b.tracing = some starter)
    {steps : List Step} (hon : ∀ early, early <+: steps → (b.after early).tracing ≠ none) :
    (b.after steps).tracing = some starter := by
  induction steps using List.reverseRecOn with
  | nil => exact h
  | append_singleton steps s ih =>
    have hb := ih fun early he => hon early (he.trans (List.prefix_append _ _))
    have hs := hon _ List.prefix_rfl
    rw [after_concat] at hs ⊢
    rcases tracing_take s (b.after steps) with he | ⟨he, -⟩ | ⟨he, -⟩
    · rw [he, hb]
    · exact absurd he hs
    · rw [hb] at he
      cases he

/-- If the tracing is that of a meter, the meter does not come before the one that would
    have had the number. -/
structure Later (n : Nat) (b : Bench) : Prop where
  made : n ≤ b.made
  starter : ∀ {k}, b.tracing = some (.meter k) → n ≤ k

theorem Later.take {n : Nat} {b : Bench} (h : Later n b) (s : Step) : Later n (s.take b) := by
  refine ⟨Nat.le_trans h.made (made_le_made_take s b), fun {k} hk => ?_⟩
  rcases tracing_take s b with he | ⟨he, -⟩ | ⟨-, ⟨-, he⟩ | ⟨name, -, he⟩⟩
  · exact h.starter (he ▸ hk)
  · rw [he] at hk
    cases hk
  · rw [he] at hk
    cases hk
  · rw [he] at hk
    cases hk
    exact h.made

theorem Later.after {n : Nat} {b : Bench} (h : Later n b) (steps : List Step) :
    Later n (b.after steps) :=
  after_induction h fun s _ _ h => h.take s

/-- While the tracing is off, whoever starts it next comes later than the meters made so
    far. -/
theorem later_of_off {b : Bench} (h : b.tracing = none) : Later b.made b :=
  ⟨Nat.le_refl _, fun hk => by rw [h] at hk; cases hk⟩

theorem made_le_made_after (b : Bench) (steps : List Step) : b.made ≤ (b.after steps).made :=
  after_induction (Nat.le_refl _) fun s _ b' h => Nat.le_trans h (made_le_made_take s b')

/-- Closing the meter of the name would stop a tracing that is on and that somebody else
    has started. -/
def StopsOthers (b : Bench) (name : Text) : Prop :=
  ∃ m starter, b.meters.get? name = some m ∧ b.tracing = some starter ∧
    (b.close name).tracing = none ∧ starter ≠ .meter m.serial

theorem stopsOthers_iff {b : Bench} {name : Text} : b.StopsOthers name ↔
    ∃ n starter, b.owner? name = some n ∧ b.tracing = some starter ∧ starter ≠ .meter n := by
  constructor
  · rintro ⟨m, starter, hm, ht, hc, hs⟩
    cases ho : b.owner? name with
    | none =>
      rw [close_of_not_owner ho, ht] at hc
      cases hc
    | some n =>
      obtain ⟨m', hm', -, rfl⟩ := owner?_eq_some_iff.1 ho
      obtain rfl := Option.some_inj.1 (hm.symm.trans hm')
      exact ⟨_, starter, rfl, ht, hs⟩
  · rintro ⟨n, starter, ho, ht, hs⟩
    obtain ⟨m, hm, -, rfl⟩ := owner?_eq_some_iff.1 ho
    exact ⟨m, starter, hm, ht, (close_of_owner ho).1, hs⟩

/-- All who own the tracing have started the one that is on. -/
structure OwnedByStarter (b : Bench) : Prop extends Numbered b where
  starter : ∀ {name n}, b.owner? name = some n → b.tracing = some (.meter n)

theorem OwnedByStarter.take {b : Bench} (h : b.OwnedByStarter) {s : Step}
    (hs : s ≠ .stopTracing) : (s.take b).OwnedByStarter := by
  refine ⟨h.toNumbered.take s, fun {name n} ho => ?_⟩
  rcases owner?_take_eq_some_iff.1 ho with ⟨htouch, hbefore⟩ | ⟨rfl, ht, rfl⟩
  · have ht := h.starter hbefore
    rcases tracing_take s b with he | ⟨-, rfl | ⟨name', n', rfl, ho'⟩⟩ | ⟨he, -⟩
    · rw [he, ht]
    · exact absurd rfl hs
    · -- Another owner was closed; but there was only one tracing to be owned.
      have hn : Starter.meter n' = .meter n := Option.some_inj.1 ((h.starter ho').symm.trans ht)
      cases hn
      obtain rfl := h.distinct hbefore ho'
      exact absurd (.inr rfl) htouch
    · rw [ht] at he
      cases he
  · simp [Step.take, make, ht]

theorem ownedByStarter_ofSteps {past : List Step} (h : .stopTracing ∉ past) :
    (ofSteps past).OwnedByStarter :=
  after_induction ⟨numbered_ofSteps [], fun h => (nomatch h)⟩ fun _ hs _ hb =>
    hb.take fun he => h (he ▸ hs)

/-- No two meters own the tracing if both have started it. -/
theorem OwnedByStarter.eq {b : Bench} (h : b.OwnedByStarter) {name name' : Text} {n n' : Nat}
    (ho : b.owner? name = some n) (ho' : b.owner? name' = some n') : name = name' := by
  have hn : Starter.meter n' = .meter n :=
    Option.some_inj.1 ((h.starter ho').symm.trans (h.starter ho))
  cases hn
  exact h.distinct ho ho'

/-! ## Closing a meter -/

/-- A closed meter stops the tracing of somebody else if and only if it has started one
    itself and was neither closed nor replaced since, this tracing has been stopped by
    somebody, so that it was off at some moment, and another one is on. This does not
    happen as long as the tracing is never stopped from outside. -/
theorem stops_others_iff {seconds megabytes : Text} {activities : List Activity}
    {past : List Step} {name : Text}
    (_ : past ++ [.close name] <+: courseAll seconds megabytes activities {}) :
    ((ofSteps past).StopsOthers name ↔
      ∃ before since, past = before ++ Step.make name true :: since ∧
        (ofSteps before).tracing = none ∧ (∀ s ∈ since, ¬s.Touches name) ∧
        (∃ early, early <+: since ∧
          (ofSteps (before ++ Step.make name true :: early)).tracing = none) ∧
        (ofSteps past).tracing ≠ none) ∧
    (.stopTracing ∉ past → ¬(ofSteps past).StopsOthers name) := by
  have hsplit (before early : List Step) : ofSteps (before ++ Step.make name true :: early) =
      ((ofSteps before).make name true).after early := by
    rw [ofSteps_append, after_cons, Step.take]
  rw [stopsOthers_iff]
  refine ⟨⟨?_, ?_⟩, ?_⟩
  · rintro ⟨n, starter, ho, ht, hs⟩
    obtain ⟨before, since, rfl, hoff, rfl, hsince⟩ := owner?_ofSteps_eq_some_iff.1 ho
    refine ⟨before, since, rfl, hoff, hsince, ?_, ht ▸ Option.some_ne_none _⟩
    -- If the tracing had never been off, it would still be that of the meter.
    by_contra hon
    have hstart : ((ofSteps before).make name true).tracing =
        some (.meter (ofSteps before).made) := by simp [make, hoff]
    rw [hsplit, tracing_after_of_on hstart fun early he hn => hon ⟨early, he, hsplit _ _ ▸ hn⟩,
      Option.some_inj] at ht
    exact hs ht.symm
  · rintro ⟨before, since, rfl, hoff, hsince, ⟨early, ⟨late, rfl⟩, hearly⟩, hon⟩
    obtain ⟨starter, ht⟩ := Option.ne_none_iff_exists'.1 hon
    refine ⟨_, starter, owner?_ofSteps_eq_some_iff.2 ⟨before, _, rfl, hoff, rfl, hsince⟩, ht, ?_⟩
    -- Whoever has started the tracing that is on came after the moment at which it was off.
    rintro rfl
    have hlater := (later_of_off hearly).after late
    rw [← ofSteps_append, List.append_assoc, List.cons_append] at hlater
    have hmade := made_le_made_after ((ofSteps before).make name true) early
    rw [← hsplit] at hmade
    exact absurd (Nat.le_trans hmade (hlater.starter ht)) (Nat.not_succ_le_self _)
  · rintro h ⟨n, starter, ho, ht, hs⟩
    rw [(ownedByStarter_ofSteps h).starter ho, Option.some_inj] at ht
    exact hs ht.symm

/-- Inside a block that fails, the tracing that the meter has started is stopped and
    started again from outside; closing the meter then stops the latter. -/
theorem stops_others_behind_block :
    let meter : Text := ['m']
    let past : List Step := [.make meter true, .stopTracing, .startTracing,
      .takeDown meter (some 0) ['x'] [] []]
    past ++ [.close meter] <+: courseAll [] [] [.make meter true,
      .attempt (.measure meter ['x'] [.stopTracing, .startTracing] (some ['e'])),
      .close meter] {} ∧ (ofSteps past).StopsOthers meter := by
  intro meter past
  have hpast : past ++ [.close meter] <+: courseAll [] [] [.make meter true,
      .attempt (.measure meter ['x'] [.stopTracing, .startTracing] (some ['e'])),
      .close meter] {} := List.prefix_rfl
  refine ⟨hpast, (stops_others_iff hpast).1.2 ⟨[], _, rfl, rfl, ?_, ⟨[.stopTracing], ?_, rfl⟩, ?_⟩⟩
  · simp [Step.Touches]
  · exact List.prefix_append _ _
  · decide

/-- A meter that has lost its tracing stops that of the outside. -/
theorem tracing_of_outside_stopped :
    let meter : Text := ['m']
    let past : List Step := [.make meter true, .stopTracing, .startTracing]
    courseAll [] [] [.make meter true, .stopTracing, .startTracing, .close meter] {} =
        past ++ [.close meter] ∧
      (ofSteps past).tracing = some .outside ∧
      (ofSteps (past ++ [.close meter])).tracing = none := ⟨rfl, rfl, rfl⟩

/-! ## Tracing without the outside -/

/-- The meter of the name owns the tracing. -/
def Owns (b : Bench) (name : Text) : Prop :=
  ∃ m, b.meters.get? name = some m ∧ m.ownsTracing = true

theorem owns_iff {b : Bench} {name : Text} : b.Owns name ↔ ∃ n, b.owner? name = some n := by
  simp [Owns, owner?_eq_some_iff]

/-- If each meter has a new name and the tracing is not started from outside, somebody owns
    the tracing while it is on. -/
theorem exists_owner_of_on {past : List Step} (hnew : (past.filterMap Step.made?).Nodup)
    (hinside : .startTracing ∉ past) (hon : (ofSteps past).tracing ≠ none) :
    ∃ name n, (ofSteps past).owner? name = some n := by
  induction past using List.reverseRecOn with
  | nil => exact absurd rfl hon
  | append_singleton past s ih =>
    rw [List.filterMap_append, List.nodup_append] at hnew
    rw [List.mem_append, List.mem_singleton, not_or] at hinside
    rw [ofSteps_concat] at hon ⊢
    simp only [owner?_take_eq_some_iff]
    rcases tracing_take s (ofSteps past) with he | ⟨he, -⟩ | ⟨ht, ⟨rfl, -⟩ | ⟨name, rfl, -⟩⟩
    · obtain ⟨name, n, ho⟩ := ih hnew.1 hinside.1 (he ▸ hon)
      refine ⟨name, n, .inl ⟨?_, ho⟩⟩
      rintro (⟨tracksMemory, rfl⟩ | rfl)
      · -- A meter of this name has been made before.
        obtain ⟨before, since, rfl, -⟩ := owner?_ofSteps_eq_some_iff.1 ho
        exact hnew.2.2 name (by simp [Step.made?]) name (by simp [Step.made?]) rfl
      · exact hon (close_of_owner ho).1
    · exact absurd he hon
    · exact absurd rfl hinside.2
    · exact ⟨name, _, .inr ⟨rfl, ht, rfl⟩⟩

/-- While no meter is made that tracks memory, and from outside nothing is started, the
    tracing stays off. -/
theorem tracing_after_of_off {b : Bench} (h : b.tracing = none) {steps : List Step}
    (hmake : ∀ name, .make name true ∉ steps) (hinside : .startTracing ∉ steps) :
    (b.after steps).tracing = none := by
  refine after_induction (P := fun b => b.tracing = none) h fun s hs b hb => ?_
  rcases tracing_take s b with he | ⟨he, -⟩ | ⟨-, ⟨rfl, -⟩ | ⟨name, rfl, -⟩⟩
  · rw [he, hb]
  · exact he
  · exact absurd hs hinside
  · exact absurd hs (hmake name)

/-- In a run in which each meter has a new name, and the tracing is neither started nor
    stopped from outside, at every moment at most one meter owns the tracing, and the
    tracing is on if and only if one does; closing a meter that does not own it changes
    nothing. If all meters have been closed, the tracing is off, and it stays off until
    another meter is made that tracks memory. -/
theorem tracing_on_iff_one_owner {seconds megabytes : Text} {activities : List Activity}
    (hnew : ((courseAll seconds megabytes activities {}).filterMap Step.made?).Nodup)
    (hinside : ∀ s ∈ courseAll seconds megabytes activities {},
      s ≠ .startTracing ∧ s ≠ .stopTracing)
    {past : List Step} (hpast : past <+: courseAll seconds megabytes activities {}) :
    (∀ name name', (ofSteps past).Owns name → (ofSteps past).Owns name' → name = name') ∧
    ((ofSteps past).tracing.isSome ↔ ∃! name, (ofSteps past).Owns name) ∧
    (∀ name, ¬(ofSteps past).Owns name → (ofSteps past).close name = ofSteps past) ∧
    ((∀ before name tracksMemory since, past = before ++ Step.make name tracksMemory :: since →
        .close name ∈ since) →
      ∀ more, past ++ more <+: courseAll seconds megabytes activities {} →
        (∀ name, .make name true ∉ more) → (ofSteps (past ++ more)).tracing = none) := by
  have hnew' : (past.filterMap Step.made?).Nodup := hnew.sublist (hpast.sublist.filterMap _)
  have hstart : .startTracing ∉ past := fun h => (hinside _ (hpast.subset h)).1 rfl
  have hstop : .stopTracing ∉ past := fun h => (hinside _ (hpast.subset h)).2 rfl
  have howned := ownedByStarter_ofSteps hstop
  have hone : ∀ name name', (ofSteps past).Owns name → (ofSteps past).Owns name' →
      name = name' := by
    intro name name' h h'
    obtain ⟨n, ho⟩ := owns_iff.1 h
    obtain ⟨n', ho'⟩ := owns_iff.1 h'
    exact howned.eq ho ho'
  refine ⟨hone, ⟨fun h => ?_, ?_⟩, fun name h => ?_, fun hclosed more hmore hmake => ?_⟩
  · obtain ⟨name, ho⟩ := exists_owner_of_on hnew' hstart (Option.isSome_iff_ne_none.1 h)
    exact ⟨name, owns_iff.2 ho, fun name' h' => hone name' name h' (owns_iff.2 ho)⟩
  · rintro ⟨name, h, -⟩
    obtain ⟨n, ho⟩ := owns_iff.1 h
    rw [howned.starter ho]
    rfl
  · refine close_of_not_owner (Option.eq_none_iff_forall_ne_some.2 fun n ho => ?_)
    exact h (owns_iff.2 ⟨n, ho⟩)
  · have hoff : (ofSteps past).tracing = none := by
      by_contra hon
      obtain ⟨name, n, ho⟩ := exists_owner_of_on hnew' hstart hon
      obtain ⟨before, since, he, -, -, hsince⟩ := owner?_ofSteps_eq_some_iff.1 ho
      exact hsince _ (hclosed before name true since he) (.inr rfl)
    rw [ofSteps_append]
    exact tracing_after_of_off hoff hmake fun h =>
      (hinside _ (hmore.subset (List.mem_append_right _ h))).1 rfl

/-- Two meters that track memory: the first one owns the tracing, also while the second
    one measures a block, and stops it inside. -/
theorem one_owner_of_two_meters :
    let a : Text := ['a']
    let b : Text := ['b']
    let run := courseAll [] [] [.make a true, .make b true,
      .attempt (.measure b ['x'] [.close b, .close a] (some ['e'])), .close a] {}
    (run.filterMap Step.made?).Nodup ∧ (∀ s ∈ run, s ≠ .startTracing ∧ s ≠ .stopTracing) ∧
      (∃! name, (ofSteps (run.take 3)).Owns name) ∧ (ofSteps run).tracing = none := by
  intro a b run
  have hnew : (run.filterMap Step.made?).Nodup := by decide
  have hinside : ∀ s ∈ run, s ≠ .startTracing ∧ s ≠ .stopTracing := by decide
  have hclosed : ∀ before name tracksMemory since,
      run = before ++ Step.make name tracksMemory :: since → .close name ∈ since := by
    intro before name tracksMemory since h
    rw [show run = [.make a true, .make b true, .close b, .close a,
      .takeDown b (some 1) ['x'] [] [], .close a] from rfl] at h
    rcases before with _ | ⟨_, _ | ⟨_, _ | ⟨_, _ | ⟨_, _ | ⟨_, _ | ⟨_, before⟩⟩⟩⟩⟩⟩ <;> simp at h
    · obtain ⟨⟨rfl, -⟩, rfl⟩ := h
      simp
    · obtain ⟨-, ⟨rfl, -⟩, rfl⟩ := h
      simp
  have hmore : run ++ [] <+: run := by simp
  have hend := (tracing_on_iff_one_owner hnew hinside List.prefix_rfl).2.2.2 hclosed [] hmore
    fun _ => List.not_mem_nil
  rw [List.append_nil] at hend
  exact ⟨hnew, hinside,
    (tracing_on_iff_one_owner hnew hinside (List.take_prefix 3 run)).2.1.1 rfl, hend⟩

end TestGrid.Bench
