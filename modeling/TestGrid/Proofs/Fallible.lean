import Mathlib.Data.List.Forall2

/-!
# Computations that may fail

What is known of a computation whose outcome is a result or a fault, when its
outcome is known. A sequence of two computations has a result if and only if
both have one (`bind_eq_ok`); a list of computations has the list of their
results if and only if each of them has its own (`mapM_eq_ok`), and else the
fault of the first one that has none (`mapM_eq_error`).
-/

namespace TestGrid.Fallible

variable {ε ε' α β : Type}

/-- Behind a result the computation goes on. -/
@[simp] theorem ok_bind (a : α) (f : α → Except ε β) : (Except.ok a >>= f) = f a := rfl

/-- Behind a fault it does not. -/
@[simp] theorem error_bind (e : ε) (f : α → Except ε β) :
    (Except.error e >>= f) = .error e := rfl

@[simp] theorem pure_eq (a : α) : (pure a : Except ε α) = .ok a := rfl

@[simp] theorem throw_eq (e : ε) : (throw e : Except ε α) = .error e := rfl

@[simp] theorem mapError_ok (g : ε → ε') (a : α) : (Except.ok a).mapError g = .ok a := rfl

@[simp] theorem mapError_error (g : ε → ε') (e : ε) :
    (Except.error e : Except ε α).mapError g = .error (g e) := rfl

/-- Two computations in sequence have a result if both have one. -/
theorem bind_eq_ok {x : Except ε α} {f : α → Except ε β} {b : β} :
    (x >>= f) = .ok b ↔ ∃ a, x = .ok a ∧ f a = .ok b := by
  cases x with
  | error e => simp
  | ok a => simp

/-- They have a fault if the first one has it, or if it has none and the second
    one has the fault. -/
theorem bind_eq_error {x : Except ε α} {f : α → Except ε β} {e : ε} :
    (x >>= f) = .error e ↔ x = .error e ∨ ∃ a, x = .ok a ∧ f a = .error e := by
  cases x with
  | error e' => simp
  | ok a => simp

/-- Naming a fault otherwise changes no result. -/
theorem mapError_eq_ok {x : Except ε α} {g : ε → ε'} {a : α} :
    x.mapError g = .ok a ↔ x = .ok a := by
  cases x with
  | error e => simp
  | ok a' => simp

theorem mapError_eq_error {x : Except ε α} {g : ε → ε'} {e : ε'} :
    x.mapError g = .error e ↔ ∃ e₀, x = .error e₀ ∧ g e₀ = e := by
  cases x with
  | error e' => simp
  | ok a => simp

/-- A computation has a result or a fault. -/
theorem exists_ok_or_error (x : Except ε α) : (∃ a, x = .ok a) ∨ ∃ e, x = .error e := by
  cases x with
  | error e => exact .inr ⟨e, rfl⟩
  | ok a => exact .inl ⟨a, rfl⟩

/-- A computation without a fault has a result. -/
theorem not_error_iff {x : Except ε α} : (¬∃ e, x = .error e) ↔ ∃ a, x = .ok a := by
  cases x with
  | error e => simp
  | ok a => simp

/-- A list of computations has the list of their results. -/
theorem mapM_eq_ok {f : α → Except ε β} {as : List α} {bs : List β} :
    as.mapM f = .ok bs ↔ List.Forall₂ (fun a b => f a = .ok b) as bs := by
  induction as generalizing bs with
  | nil => simp [eq_comm]
  | cons a as ih =>
    rw [List.mapM_cons, bind_eq_ok]
    constructor
    · rintro ⟨b, hb, h⟩
      obtain ⟨bs', hbs, h⟩ := bind_eq_ok.1 h
      cases h
      exact .cons hb (ih.1 hbs)
    · intro h
      cases h with
      | cons hb hbs => exact ⟨_, hb, by rw [ih.2 hbs]; rfl⟩

/-- It has results if and only if each of the computations has one. -/
theorem exists_mapM_eq_ok {f : α → Except ε β} {as : List α} :
    (∃ bs, as.mapM f = .ok bs) ↔ ∀ a ∈ as, ∃ b, f a = .ok b := by
  simp only [mapM_eq_ok]
  induction as with
  | nil => simp
  | cons a as ih =>
    rw [List.forall_mem_cons, ← ih]
    constructor
    · rintro ⟨_, h⟩
      cases h with
      | cons hb hbs => exact ⟨⟨_, hb⟩, ⟨_, hbs⟩⟩
    · rintro ⟨⟨b, hb⟩, ⟨bs, hbs⟩⟩
      exact ⟨b :: bs, .cons hb hbs⟩

/-- Each of the results is that of one of the computations. -/
theorem exists_of_mem_mapM {f : α → Except ε β} {as : List α} {bs : List β}
    (h : as.mapM f = .ok bs) {b : β} (hb : b ∈ bs) : ∃ a ∈ as, f a = .ok b := by
  rw [mapM_eq_ok] at h
  induction h with
  | nil => exact absurd hb List.not_mem_nil
  | cons ha _ ih =>
    rcases List.mem_cons.1 hb with rfl | hb
    · exact ⟨_, List.mem_cons_self, ha⟩
    · obtain ⟨a, hm, ha⟩ := ih hb
      exact ⟨a, List.mem_cons_of_mem _ hm, ha⟩

/-- Computations that do as well as those of another list have the same results. -/
theorem mapM_of_forall₂ {γ : Type} {f : α → Except ε β} {g : γ → Except ε β} {as : List α}
    {cs : List γ} {bs : List β}
    (h : List.Forall₂ (fun a c => ∀ b, f a = .ok b → g c = .ok b) as cs)
    (hf : as.mapM f = .ok bs) : cs.mapM g = .ok bs := by
  rw [mapM_eq_ok] at hf ⊢
  induction h generalizing bs with
  | nil =>
    cases hf
    exact .nil
  | cons hac _ ih =>
    cases hf with
    | cons hb hbs => exact .cons (hac _ hb) (ih hbs)

/-- Faults may be named otherwise one by one. -/
theorem mapM_mapError {f : α → Except ε β} {f' : α → Except ε' β} {g : ε → ε'}
    (h : ∀ a, f' a = (f a).mapError g) (as : List α) :
    as.mapM f' = (as.mapM f).mapError g := by
  induction as with
  | nil => rfl
  | cons a as ih =>
    rw [List.mapM_cons, List.mapM_cons, h, ih]
    cases f a with
    | error e => rfl
    | ok b => cases as.mapM f <;> rfl

/-- Some result is of a kind if and only if some computation is, provided that its result
    tells. -/
theorem exists_mem_mapM_iff {f : α → Except ε β} {as : List α} {bs : List β}
    (h : as.mapM f = .ok bs) {p : α → Prop} {q : β → Prop}
    (hpq : ∀ a b, f a = .ok b → (q b ↔ p a)) : (∃ b ∈ bs, q b) ↔ ∃ a ∈ as, p a := by
  rw [mapM_eq_ok] at h
  induction h with
  | nil => simp
  | cons hab _ ih => simp [hpq _ _ hab, ih]

/-- It has a fault if and only if the first of them without a result has it. -/
theorem mapM_eq_error {f : α → Except ε β} {as : List α} {e : ε} :
    as.mapM f = .error e ↔ ∃ before a behind, as = before ++ a :: behind ∧
      (∀ a' ∈ before, ∃ b, f a' = .ok b) ∧ f a = .error e := by
  induction as with
  | nil =>
    refine ⟨fun h => (nomatch h), ?_⟩
    rintro ⟨before, a, behind, h, -, -⟩
    exact absurd h.symm (List.append_ne_nil_of_right_ne_nil _ (List.cons_ne_nil _ _))
  | cons a as ih =>
    rw [List.mapM_cons, bind_eq_error]
    constructor
    · rintro (h | ⟨b, hb, h⟩)
      · exact ⟨[], a, as, rfl, fun _ h => absurd h List.not_mem_nil, h⟩
      · rcases bind_eq_error.1 h with h | ⟨_, _, h⟩
        · obtain ⟨before, a', behind, rfl, hok, he⟩ := ih.1 h
          exact ⟨a :: before, a', behind, rfl, List.forall_mem_cons.2 ⟨⟨b, hb⟩, hok⟩, he⟩
        · cases h
    · rintro ⟨before, a', behind, h, hok, he⟩
      cases before with
      | nil =>
        cases h
        exact .inl he
      | cons a₀ before =>
        cases h
        rw [List.forall_mem_cons] at hok
        obtain ⟨⟨b, hb⟩, hok⟩ := hok
        exact .inr ⟨b, hb, bind_eq_error.2 (.inl (ih.2 ⟨before, a', behind, rfl, hok, he⟩))⟩

/-- To put results together one after the other, each of which does not depend
    on those before, is to find all of them first. -/
theorem foldlM_eq_map_mapM {σ : Type} {step : σ → α → Except ε σ} {f : α → Except ε β}
    {put : σ → β → σ} (h : ∀ s a, step s a = (f a).map (put s)) (as : List α) (s : σ) :
    as.foldlM step s = (as.mapM f).map fun bs => bs.foldl put s := by
  induction as generalizing s with
  | nil => rfl
  | cons a as ih =>
    rw [List.foldlM_cons, List.mapM_cons, h]
    cases f a with
    | error e => rfl
    | ok b =>
      show as.foldlM step (put s b) = _
      rw [ih]
      cases as.mapM f with
      | error e => rfl
      | ok bs => rfl

/-- A list that is written item by item is read item by item. -/
theorem mapM_map_eq_some {f : β → Option α} {g : α → β} {as : List α}
    (h : ∀ a ∈ as, f (g a) = some a) : (as.map g).mapM f = some as := by
  induction as with
  | nil => rfl
  | cons a as ih =>
    rw [List.forall_mem_cons] at h
    rw [List.map_cons, List.mapM_cons, h.1, ih h.2]
    rfl

theorem map_eq_ok {x : Except ε α} {g : α → β} {b : β} :
    x.map g = .ok b ↔ ∃ a, x = .ok a ∧ g a = b := by
  cases x with
  | error e => simp [Except.map]
  | ok a => simp [Except.map]

theorem map_eq_error {x : Except ε α} {g : α → β} {e : ε} :
    x.map g = .error e ↔ x = .error e := by
  cases x with
  | error e' => simp [Except.map]
  | ok a => simp [Except.map]

end TestGrid.Fallible
