/-!
# Text

What users write down, component names, versions, rules and paths, is a
`Text`: the list of its characters. Lists make every reading below a recursion
on the characters left. Blank characters are those of Unicode; a text is
trimmed of them at both ends before it is read.

* `Text.trim`: a text without its blank margins;
* `Text.pieces`: a text split at its separators, with every piece kept, also
  the empty ones, so that there is one piece more than there are separators;
* `Text.cut`: the two sides of the first separator;
* `Text.joined`: texts put together around a separator.
-/

namespace TestGrid

/-- A text, as the list of its characters. -/
abbrev Text := List Char

/-- Within a message a text stands as it is. -/
instance : ToString Text := ⟨String.ofList⟩

/-- The characters that leave a blank on paper or end a line or a section. -/
def isBlank (c : Char) : Bool :=
  let n := c.toNat
  (9 ≤ n && n ≤ 13) || (28 ≤ n && n ≤ 32) || n == 0x85 || n == 0xA0 || n == 0x1680 ||
    (0x2000 ≤ n && n ≤ 0x200A) || n == 0x2028 || n == 0x2029 || n == 0x202F ||
    n == 0x205F || n == 0x3000

namespace Text

/-- A text without the blanks it starts with. -/
def trimStart (t : Text) : Text := t.dropWhile isBlank

/-- A text without the blanks it ends with. -/
def trimEnd (t : Text) : Text := (t.reverse.dropWhile isBlank).reverse

/-- A text without the blanks at its ends. -/
def trim (t : Text) : Text := trimEnd (trimStart t)

/-- Puts a character in front of the first of several pieces. -/
def consFirst (c : Char) : List Text → List Text
  | [] => [[c]]
  | p :: ps => (c :: p) :: ps

/-- The pieces of a text between its separators. -/
def pieces (sep : Char → Bool) : Text → List Text
  | [] => [[]]
  | c :: r => if sep c then [] :: pieces sep r else consFirst c (pieces sep r)

/-- What stands before and after the first `sep` of a text, if it has one. -/
def cut (sep : Char) : Text → Option (Text × Text)
  | [] => none
  | c :: r => if c = sep then some ([], r) else (cut sep r).map fun (a, b) => (c :: a, b)

/-- The texts one after the other, with `sep` between neighbours. -/
def joined (sep : Text) (ts : List Text) : Text := List.intercalate sep ts

/-! ### Laws of the readings -/

@[simp] theorem pieces_nil (sep : Char → Bool) : pieces sep [] = [[]] := rfl

theorem pieces_ne_nil (sep : Char → Bool) (t : Text) : pieces sep t ≠ [] := by
  cases t with
  | nil => simp
  | cons c r =>
    rw [pieces]
    split
    · simp
    · cases pieces sep r <;> simp [consFirst]

/-- There is one piece more than there are separators. -/
theorem length_pieces (sep : Char → Bool) (t : Text) :
    (pieces sep t).length = t.countP sep + 1 := by
  induction t with
  | nil => rfl
  | cons c r ih =>
    rw [pieces]
    split
    · simp_all
    · rename_i h
      rw [List.countP_cons_of_neg (by simpa using h), ← ih]
      cases hp : pieces sep r with
      | nil => exact absurd hp (pieces_ne_nil sep r)
      | cons p ps => rfl

/-- A text with a separator is what stands before the first one, the separator,
    and what stands after it. -/
theorem cut_eq_some_iff {sep : Char} {t a b : Text} :
    cut sep t = some (a, b) ↔ t = a ++ sep :: b ∧ sep ∉ a := by
  induction t generalizing a with
  | nil => simp [cut]
  | cons c r ih =>
    rw [cut]
    by_cases hc : c = sep
    · -- The text starts with the separator.
      subst hc
      rw [if_pos rfl]
      constructor
      · rintro ⟨⟩
        exact ⟨rfl, List.not_mem_nil⟩
      · rintro ⟨h, hn⟩
        cases a with
        | nil => rw [List.nil_append, List.cons.injEq] at h; rw [h.2]
        | cons d a =>
          rw [List.cons_append, List.cons.injEq] at h
          exact absurd (h.1 ▸ List.mem_cons_self) hn
    · -- It starts with another character, which belongs to the first part.
      rw [if_neg hc]
      constructor
      · intro h
        obtain ⟨⟨a', b'⟩, h', he⟩ := Option.map_eq_some_iff.1 h
        rw [Prod.mk.injEq] at he
        obtain ⟨rfl, rfl⟩ := he
        obtain ⟨rfl, hn⟩ := ih.1 h'
        exact ⟨rfl, fun hm => (List.mem_cons.1 hm).elim (fun e => hc e.symm) hn⟩
      · rintro ⟨h, hn⟩
        cases a with
        | nil => rw [List.nil_append, List.cons.injEq] at h; exact absurd h.1 hc
        | cons d a =>
          rw [List.cons_append, List.cons.injEq] at h
          obtain ⟨rfl, rfl⟩ := h
          rw [ih.2 ⟨rfl, fun hm => hn (List.mem_cons_of_mem _ hm)⟩]
          rfl

/-- A text is not cut if it has no separator. -/
theorem cut_eq_none_iff {sep : Char} {t : Text} : cut sep t = none ↔ sep ∉ t := by
  induction t with
  | nil => simp [cut]
  | cons c r ih =>
    rw [cut, List.mem_cons, not_or]
    by_cases hc : c = sep
    · simp [hc]
    · rw [if_neg hc, Option.map_eq_none_iff, ih]
      exact ⟨fun h => ⟨Ne.symm hc, h⟩, fun h => h.2⟩

end Text

end TestGrid
