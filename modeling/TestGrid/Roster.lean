/-!
# Rosters

A roster assigns values to names and remembers in which order the names were
first entered. A name entered again keeps its place and takes the new value, so
no name stands twice. Catalogs, rule books and selections are rosters of
components; so are the loggers of a journal and the entries of a file tree.

* `Roster.get?_insert`: entering a name changes the value of this name only;
* `Roster.keys_insert`: it keeps the order, and a new name comes last.
-/

namespace TestGrid

/-- Names with their values, in the order in which they were first entered. -/
structure Roster (κ α : Type) where
  /-- The names with their values, in order. -/
  entries : List (κ × α)
  /-- No name stands twice. -/
  nodup : (entries.map Prod.fst).Nodup := by simp

namespace Roster

variable {κ α : Type}

@[ext] theorem ext {r s : Roster κ α} (h : r.entries = s.entries) : r = s := by
  cases r; cases s; cases h; rfl

instance [DecidableEq κ] [DecidableEq α] : DecidableEq (Roster κ α) := fun r s =>
  decidable_of_iff (r.entries = s.entries) ⟨ext, congrArg entries⟩

instance [Repr κ] [Repr α] : Repr (Roster κ α) := ⟨fun r => reprPrec r.entries⟩

/-- The roster without names. -/
def empty : Roster κ α := ⟨[], by simp⟩

instance : EmptyCollection (Roster κ α) := ⟨empty⟩

instance : Inhabited (Roster κ α) := ⟨empty⟩

/-- The names, in order. -/
def keys (r : Roster κ α) : List κ := r.entries.map Prod.fst

/-- Whether the roster has no name. -/
def isEmpty (r : Roster κ α) : Bool := r.entries.isEmpty

variable [DecidableEq κ]

/-- The value of a name. -/
def get? (r : Roster κ α) (k : κ) : Option α :=
  (r.entries.find? fun e => e.1 = k).map Prod.snd

/-- Whether the roster has the name. -/
def contains (r : Roster κ α) (k : κ) : Bool := r.keys.contains k

/-- A list of entries in which the entry of a name takes a value. -/
def replaceIn (k : κ) (a : α) (es : List (κ × α)) : List (κ × α) :=
  es.map fun e => if e.1 = k then (k, a) else e

/-- A replaced value leaves the names as they are. -/
@[simp] theorem map_fst_replaceIn (k : κ) (a : α) (es : List (κ × α)) :
    (replaceIn k a es).map Prod.fst = es.map Prod.fst := by
  rw [replaceIn, List.map_map]
  refine List.map_congr_left fun e _ => ?_
  by_cases h : e.1 = k <;> simp [h]

/-- Enters a name with its value: in the place of the name if it is there, else
    at the end. -/
def insert (r : Roster κ α) (k : κ) (a : α) : Roster κ α :=
  if h : k ∈ r.keys then ⟨replaceIn k a r.entries, by simpa using r.nodup⟩
  else ⟨r.entries ++ [(k, a)], by
    rw [List.map_append, List.nodup_append]
    refine ⟨r.nodup, by simp, fun x hx y hy => ?_⟩
    obtain rfl : y = k := by simpa using hy
    exact fun hxy => h (hxy ▸ hx)⟩

/-- Enters a name with a value made of the one it has, if it has one. -/
def alter (r : Roster κ α) (k : κ) (f : Option α → α) : Roster κ α :=
  r.insert k (f (r.get? k))

/-- Enters the names of a list one after the other. -/
def insertAll (r : Roster κ α) (es : List (κ × α)) : Roster κ α :=
  es.foldl (fun r (k, a) => r.insert k a) r

/-- The roster of a list: a repeated name stands at its first place with its
    last value. -/
def ofList (es : List (κ × α)) : Roster κ α := empty.insertAll es

/-! ### Laws -/

/-- Entering a name adds it at the end, unless it is there. -/
theorem keys_insert (r : Roster κ α) (k : κ) (a : α) :
    (r.insert k a).keys = if k ∈ r.keys then r.keys else r.keys ++ [k] := by
  unfold insert
  split
  · simp [keys]
  · simp [keys]

theorem mem_keys_insert {r : Roster κ α} {k k' : κ} {a : α} :
    k' ∈ (r.insert k a).keys ↔ k' ∈ r.keys ∨ k' = k := by
  rw [keys_insert]
  by_cases h : k ∈ r.keys
  · rw [if_pos h]
    exact ⟨.inl, fun h' => h'.elim id fun hk => hk ▸ h⟩
  · rw [if_neg h, List.mem_append, List.mem_singleton]

/-- A name has a value if and only if it stands in the roster. -/
theorem get?_isSome {r : Roster κ α} {k : κ} : (r.get? k).isSome ↔ k ∈ r.keys := by
  simp [get?, keys]

theorem get?_eq_none {r : Roster κ α} {k : κ} : r.get? k = none ↔ k ∉ r.keys := by
  rw [← get?_isSome, Option.not_isSome_iff_eq_none]

/-- The value that a list of entries has for a name. -/
def valueIn (k : κ) (es : List (κ × α)) : Option α := (es.find? fun e => e.1 = k).map Prod.snd

theorem get?_eq_valueIn (r : Roster κ α) (k : κ) : r.get? k = valueIn k r.entries := rfl

theorem valueIn_cons (k : κ) (e : κ × α) (es : List (κ × α)) :
    valueIn k (e :: es) = if e.1 = k then some e.2 else valueIn k es := by
  by_cases h : e.1 = k <;> simp [valueIn, h]

theorem replaceIn_cons (k : κ) (a : α) (e : κ × α) (es : List (κ × α)) :
    replaceIn k a (e :: es) = (if e.1 = k then (k, a) else e) :: replaceIn k a es := rfl

/-- A replaced value is seen at its name. -/
theorem valueIn_replaceIn_self {k : κ} {es : List (κ × α)} (h : k ∈ es.map Prod.fst) (a : α) :
    valueIn k (replaceIn k a es) = some a := by
  induction es with
  | nil => exact absurd h List.not_mem_nil
  | cons e es ih =>
    rw [replaceIn_cons, valueIn_cons]
    by_cases he : e.1 = k
    · simp [he]
    · rw [List.map_cons, List.mem_cons] at h
      simp [he, ih (h.resolve_left (Ne.symm he))]

/-- A replaced value is not seen at any other name. -/
theorem valueIn_replaceIn_of_ne {k k' : κ} (h : k' ≠ k) (a : α) (es : List (κ × α)) :
    valueIn k' (replaceIn k a es) = valueIn k' es := by
  induction es with
  | nil => rfl
  | cons e es ih =>
    rw [replaceIn_cons, valueIn_cons, valueIn_cons, ih]
    by_cases he : e.1 = k
    · simp [he, h.symm]
    · simp [he]

/-- A value at the end of a list of entries is seen if the name has no other. -/
theorem valueIn_append_singleton {k : κ} {es : List (κ × α)} (h : k ∉ es.map Prod.fst) (k' : κ)
    (a : α) : valueIn k' (es ++ [(k, a)]) = if k' = k then some a else valueIn k' es := by
  induction es with
  | nil => simp [valueIn, eq_comm]
  | cons e es ih =>
    rw [List.map_cons, List.mem_cons, not_or] at h
    rw [List.cons_append, valueIn_cons, valueIn_cons, ih h.2]
    by_cases he : e.1 = k'
    · have : k' ≠ k := fun hk => h.1 (hk ▸ he.symm)
      simp [he, this]
    · simp [he]

/-- Entering a name changes the value of this name only. -/
theorem get?_insert (r : Roster κ α) (k k' : κ) (a : α) :
    (r.insert k a).get? k' = if k' = k then some a else r.get? k' := by
  unfold insert
  split
  · rename_i h
    by_cases hk : k' = k
    · subst hk
      rw [if_pos rfl]
      exact valueIn_replaceIn_self h a
    · rw [if_neg hk]
      exact valueIn_replaceIn_of_ne hk a r.entries
  · rename_i h
    exact valueIn_append_singleton h k' a

end Roster

end TestGrid
