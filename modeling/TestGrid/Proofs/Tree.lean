import Mathlib.Data.List.Infix
import TestGrid.Files.Tree
import TestGrid.Proofs.Fallible

/-!
# What stays in a file tree

No operation on a tree takes anything away: a file may get another content and
something new may be made, but a file stays a file and a directory stays a
directory (`Tree.Keeps`). The reason is that something is only put at the end of
a way that leads through directories (`Tree.Reachable`).

So a path that leads to a file once leads to one from then on, and can be
written to (`Tree.HasFile`). And making directories changes no file
(`Tree.SameFiles`), while writing to a file changes this one only
(`Tree.get?_put_eq_file_iff_of_openFile`).
-/

namespace TestGrid.Files

open Fallible

/-! ## Putting a node -/

namespace Node

/-- Behind a location, names lead on from what stands there. -/
theorem get?_append (m : Node) (l r : Location) :
    m.get? (l ++ r) = (m.get? l).bind fun n => n.get? r := by
  induction l generalizing m with
  | nil => rfl
  | cons name l ih =>
    rw [List.cons_append, get?, get?]
    cases Roster.valueIn name m.entries with
    | none => rfl
    | some n => exact ih n

/-- On the way to what is put, directories stand. -/
theorem exists_get?_put_of_prefix (n m : Node) {l l' : Location} (hp : l' <+: l) (hne : l' ≠ l) :
    ∃ es, (put n m l).get? l' = some (directory es) := by
  induction l generalizing m l' with
  | nil => exact absurd (List.prefix_nil.1 hp) hne
  | cons name l ih =>
    cases l' with
    | nil => exact ⟨_, rfl⟩
    | cons name' l' =>
      obtain ⟨rfl, hrest⟩ := List.cons_prefix_cons.1 hp
      rw [put, get?, entries, valueIn_enter, if_pos rfl]
      exact ih _ hrest fun he => hne (he ▸ rfl)

/-- What stands in the node stands in the other one too, a file as a file and a
    directory as a directory. -/
def Keeps (m m' : Node) : Prop :=
  ∀ l n, m.get? l = some n → ∃ n', m'.get? l = some n' ∧ n'.isDirectory = n.isDirectory

/-- A directory keeps what it has if what a name leads to is kept. -/
theorem keeps_enter {es : List (Text × Node)} {name : Text} {n : Node}
    (h : ∀ m, Roster.valueIn name es = some m → m.Keeps n) :
    (directory es).Keeps (directory (enter name n es)) := by
  intro l m hm
  cases l with
  | nil =>
    cases hm
    exact ⟨_, rfl, rfl⟩
  | cons name' l =>
    rw [get?, entries] at hm ⊢
    rw [valueIn_enter]
    by_cases hn : name' = name
    · subst hn
      rw [if_pos rfl]
      cases hv : Roster.valueIn name' es with
      | none =>
        rw [hv] at hm
        cases hm
      | some next =>
        rw [hv] at hm
        exact h next hv l m hm
    · rw [if_neg hn]
      exact ⟨m, hm, rfl⟩

/-- A node may be put where nothing or a file stands, if it is not the latter
    that becomes a directory, and if no file stands on the way. -/
theorem keeps_put {n m : Node} {l : Location}
    (hl : ∀ m', m.get? l = some m' → m'.isDirectory = false ∧ n.isDirectory = false)
    (hway : ∀ p, p <+: l → p ≠ l → ∀ b, m.get? p ≠ some (file b)) : m.Keeps (put n m l) := by
  -- The induction goes down the way; at its end a file takes the place of a file.
  induction l generalizing m with
  | nil =>
    obtain ⟨hm, hn⟩ := hl m rfl
    intro l' m' h
    cases m with
    | directory es => cases hm
    | file b =>
      cases l' with
      | nil =>
        cases h
        exact ⟨n, rfl, hn⟩
      | cons name l' => cases h
  | cons name l ih =>
    cases m with
    | file b => exact absurd rfl (hway [] List.nil_prefix (List.cons_ne_nil _ _).symm b)
    | directory es =>
      rw [put]
      refine keeps_enter fun next hv => ?_
      have hget (p : Location) : (directory es).get? (name :: p) = next.get? p := by
        rw [get?, entries, hv]
      rw [entries, hv, Option.getD_some]
      refine ih (fun m' hm => hl m' (hget l ▸ hm)) fun p hp hne b => ?_
      rw [← hget]
      exact hway _ ((List.prefix_cons_inj name).2 hp) (fun he => hne (List.cons.inj he).2) b

end Node

namespace Tree

/-- What stands in the tree stands in the other one too, a file as a file and a
    directory as a directory. -/
def Keeps (t t' : Tree) : Prop :=
  ∀ l n, t.get? l = some n → ∃ n', t'.get? l = some n' ∧ n'.isDirectory = n.isDirectory

variable {t t' t'' : Tree}

theorem Keeps.refl (t : Tree) : t.Keeps t := fun _ n h => ⟨n, h, rfl⟩

theorem Keeps.trans (h : t.Keeps t') (h' : t'.Keeps t'') : t.Keeps t'' := by
  intro l n hn
  obtain ⟨n', hn', hd⟩ := h l n hn
  obtain ⟨n'', hn'', hd'⟩ := h' l n' hn'
  exact ⟨n'', hn'', hd'.trans hd⟩

/-- A file stays a file. -/
theorem Keeps.exists_file (h : t.Keeps t') {l : Location} {b : ByteArray}
    (hb : t.get? l = some (.file b)) : ∃ b', t'.get? l = some (.file b') := by
  obtain ⟨n', hn', hd⟩ := h l _ hb
  cases n' with
  | file b' => exact ⟨b', hn'⟩
  | directory es => cases hd

/-- A directory stays a directory. -/
theorem Keeps.exists_directory (h : t.Keeps t') {l : Location} {es : List (Text × Node)}
    (hd : t.get? l = some (.directory es)) : ∃ es', t'.get? l = some (.directory es') := by
  obtain ⟨n', hn', hn⟩ := h l _ hd
  cases n' with
  | file b' => cases hn
  | directory es' => exact ⟨es', hn'⟩

/-! ## Ways through a tree -/

/-- No file stands on the way to the location. -/
def Reachable (t : Tree) (l : Location) : Prop :=
  ∀ p, p <+: l → p ≠ l → ∀ b, t.get? p ≠ some (.file b)

/-- A way leads on behind a directory. -/
theorem Reachable.concat {here : Location} {es : List (Text × Node)} (h : t.Reachable here)
    (hd : t.get? here = some (.directory es)) (name : Text) : t.Reachable (here ++ [name]) := by
  intro p hp hne b
  rcases List.prefix_concat_iff.1 hp with rfl | hp
  · exact absurd rfl hne
  · by_cases he : p = here
    · rw [he, hd]
      exact fun hb => nomatch hb
    · exact h p hp he b

/-- What is on the way can be reached too. -/
theorem Reachable.dropLast {here : Location} (h : t.Reachable here) :
    t.Reachable here.dropLast := by
  intro p hp hne b
  refine h p (hp.trans (List.dropLast_prefix here)) (fun he => hne ?_) b
  subst he
  exact hp.eq_of_length_le (List.length_dropLast ▸ Nat.sub_le _ _)

/-- Names lead from a location that can be reached to one that can be reached. -/
theorem Reachable.walk {here l : Location} {names : List Text} (h : t.Reachable here)
    (hw : t.walk here names = .ok l) : t.Reachable l := by
  fun_induction Tree.walk t here names with
  | case1 =>
    cases hw
    exact h
  | case2 | case3 | case4 => cases hw
  | case5 here name names es hd _ ih =>
    refine ih ?_ hw
    split
    · exact h.dropLast
    · exact h.concat hd name

/-- The location that a path leads to can be reached. -/
theorem reachable_of_locate {p shown : Path} {l : Location} (h : t.locate p shown = .ok l) :
    t.Reachable l := by
  rw [locate] at h
  split at h
  · cases h
  · refine Reachable.walk (fun p hp hne => ?_) (mapError_eq_ok.1 h)
    exact absurd (List.prefix_nil.1 hp) hne

/-- Where names lead, they lead also if more stands there. -/
theorem Keeps.walk (h : t.Keeps t') {here l : Location} {names : List Text}
    (hw : t.walk here names = .ok l) : t'.walk here names = .ok l := by
  fun_induction Tree.walk t here names with
  | case1 => exact hw
  | case2 | case3 | case4 => cases hw
  | case5 here name names es hd hlen ih =>
    obtain ⟨es', hd'⟩ := h.exists_directory hd
    rw [Tree.walk, hd']
    dsimp only
    rw [if_neg hlen]
    exact ih hw

theorem Keeps.locate (h : t.Keeps t') {p shown : Path} {l : Location}
    (hl : t.locate p shown = .ok l) : t'.locate p shown = .ok l := by
  rw [Tree.locate] at hl ⊢
  split at hl
  · cases hl
  · next hlen =>
    rw [if_neg hlen]
    exact mapError_eq_ok.2 (h.walk (mapError_eq_ok.1 hl))

/-! ## The operations -/

/-- A file may be put where no directory stands, or a new directory where nothing
    does. -/
theorem keeps_put {l : Location} {n : Node} (hr : t.Reachable l)
    (hl : ∀ m, t.get? l = some m → m.isDirectory = false ∧ n.isDirectory = false) :
    t.Keeps (t.put l n) := by
  have hk : t.root.Keeps (n.put t.root l) := Node.keeps_put hl hr
  cases l with
  | nil => cases (hl t.root rfl).1
  | cons name l => exact hk

theorem keeps_putDirectory {l : Location} (hr : t.Reachable l) : t.Keeps (t.putDirectory l) := by
  rw [putDirectory]
  split
  · exact .refl t
  · next hn =>
    refine keeps_put hr fun m hm => absurd ?_ hn
    rw [hm]
    rfl

section Made

variable {R : Tree → Tree → Prop} (hrefl : ∀ t, R t t)
  (htrans : ∀ {t t' t''}, R t t' → R t' t'' → R t t'')
  (hput : ∀ {t l}, t.Reachable l → R t (t.putDirectory l))

include hput

theorem rel_makeDirectory {p : Path} (h : t.makeDirectory p = .ok t') : R t t' := by
  rw [makeDirectory] at h
  split at h
  · cases h
  · next l hl =>
    split at h
    · cases h
    · cases h
      exact hput (reachable_of_locate hl)

include hrefl

theorem rel_ensureDirectory {p : Path} (h : t.ensureDirectory p = .ok t') : R t t' := by
  rw [ensureDirectory] at h
  split at h
  · next hm =>
    cases h
    exact rel_makeDirectory hput hm
  · split at h
    · cases h
      exact hrefl t
    · cases h

include htrans

/-- What relates a tree to the one with a directory put where a path leads, also
    relates it to what there is when directories have been made, even if they could
    not all be made. -/
theorem rel_makeAll (anchor : Anchor) (names : List Text) (t : Tree) :
    R t (makeAll anchor names t).1 := by
  induction names generalizing t with
  | nil =>
    rw [makeAll]
    split
    · next h => exact rel_ensureDirectory hrefl hput h
    · exact hrefl t
  | cons name above ih =>
    rw [makeAll]
    split
    · next h => exact rel_ensureDirectory hrefl hput h
    · split
      · have hk : R t (makeAll anchor above t).1 := ih t
        split
        · next hm =>
          rw [hm] at hk
          exact hk
        · next hm =>
          rw [hm] at hk
          split
          · next h => exact htrans hk (rel_ensureDirectory hrefl hput h)
          · exact hk
      · exact hrefl t

end Made

/-- Also where directories cannot be made, what was there stays. -/
theorem keeps_makeDirectories (t : Tree) (p : Path) : t.Keeps (t.makeDirectories p).1 :=
  rel_makeAll Keeps.refl Keeps.trans keeps_putDirectory p.anchor p.parts.reverse t

/-- A file that can be opened is where its path leads, and there is no directory. -/
theorem openFile_eq_ok {p shown : Path} {l : Location} {b : ByteArray}
    (h : t.openFile p shown = .ok (l, b)) :
    t.locate p shown = .ok l ∧ ∀ m, t.get? l = some m → m.isDirectory = false := by
  rw [openFile] at h
  split at h
  · cases h
  · next l' hl =>
    split at h
    · cases h
    · next hf =>
      cases h
      refine ⟨hl, fun m hm => ?_⟩
      rw [hf] at hm
      cases hm
      rfl
    · next hn =>
      cases h
      refine ⟨hl, fun m hm => ?_⟩
      rw [hn] at hm
      cases hm

theorem keeps_put_of_openFile {p shown : Path} {l : Location} {b : ByteArray}
    (h : t.openFile p shown = .ok (l, b)) (b' : ByteArray) : t.Keeps (t.put l (.file b')) := by
  obtain ⟨hl, hm⟩ := openFile_eq_ok h
  exact keeps_put (reachable_of_locate hl) fun m hm' => ⟨hm m hm', rfl⟩

theorem keeps_write {p shown : Path} {content : ByteArray}
    (h : t.write p shown content = .ok t') : t.Keeps t' := by
  obtain ⟨⟨l, b⟩, ho, h⟩ := bind_eq_ok.1 h
  cases h
  exact keeps_put_of_openFile ho content

theorem keeps_append {p shown : Path} {content : ByteArray}
    (h : t.append p shown content = .ok t') : t.Keeps t' := by
  obtain ⟨⟨l, b⟩, ho, h⟩ := bind_eq_ok.1 h
  cases h
  exact keeps_put_of_openFile ho _

/-! ## Files that stay as they are -/

/-- The trees have the same files, each with the same content at the same
    location. -/
def SameFiles (t t' : Tree) : Prop :=
  ∀ l b, t'.get? l = some (.file b) ↔ t.get? l = some (.file b)

theorem SameFiles.refl (t : Tree) : t.SameFiles t := fun _ _ => .rfl

theorem SameFiles.trans (h : t.SameFiles t') (h' : t'.SameFiles t'') : t.SameFiles t'' :=
  fun l b => (h' l b).trans (h l b)

theorem get?_append (t : Tree) (l r : Location) :
    t.get? (l ++ r) = (t.get? l).bind fun n => n.get? r := Node.get?_append t.root l r

theorem root_put {l : Location} (hl : l ≠ []) (n : Node) : (t.put l n).root = n.put t.root l := by
  cases l with
  | nil => exact absurd rfl hl
  | cons name l => rfl

/-- At and below the location, there is what is put. -/
theorem get?_put_append {l : Location} (hl : l ≠ []) (n : Node) (r : Location) :
    (t.put l n).get? (l ++ r) = n.get? r := by
  rw [get?_append, get?, root_put hl, Node.get?_put_self]
  rfl

/-- Anywhere else, files stay as they are, and there are no others. -/
theorem get?_put_eq_file_iff {l l' : Location} (hr : t.Reachable l) (h : ¬l <+: l') (n : Node)
    {b : ByteArray} : (t.put l n).get? l' = some (.file b) ↔ t.get? l' = some (.file b) := by
  have hl : l ≠ [] := by
    rintro rfl
    exact h List.nil_prefix
  have hput : (t.put l n).get? l' = (n.put t.root l).get? l' := by rw [get?, root_put hl]
  rw [hput]
  by_cases hp : l' <+: l
  · have hne : l' ≠ l := fun he => h (he ▸ List.prefix_rfl)
    obtain ⟨es, he⟩ := Node.exists_get?_put_of_prefix n t.root hp hne
    rw [he]
    exact iff_of_false (fun hb => nomatch hb) (hr l' hp hne b)
  · rw [Node.get?_put_of_apart n t.root h hp]
    rfl

theorem sameFiles_putDirectory {l : Location} (hr : t.Reachable l) :
    t.SameFiles (t.putDirectory l) := by
  rw [putDirectory]
  split
  · exact .refl t
  · next hn =>
    have hnone : t.get? l = none := Option.not_isSome_iff_eq_none.1 hn
    have hl : l ≠ [] := by
      rintro rfl
      cases hnone
    intro l' b
    by_cases hp : l <+: l'
    · -- Neither below nothing nor in a new directory is there a file.
      obtain ⟨r, rfl⟩ := hp
      rw [get?_put_append hl, get?_append, hnone]
      refine iff_of_false (fun hb => ?_) fun hb => nomatch hb
      cases r <;> cases hb
    · exact get?_put_eq_file_iff hr hp _

/-- To make directories changes no file. -/
theorem sameFiles_makeDirectories (t : Tree) (p : Path) :
    t.SameFiles (t.makeDirectories p).1 :=
  rel_makeAll SameFiles.refl SameFiles.trans sameFiles_putDirectory p.anchor p.parts.reverse t

section OpenFile

variable {p shown : Path} {l : Location} {b : ByteArray} (h : t.openFile p shown = .ok (l, b))
  (b' : ByteArray)

include h

theorem ne_nil_of_openFile : l ≠ [] := by
  rintro rfl
  cases (openFile_eq_ok h).2 t.root rfl

/-- A file that is written to has what is written. -/
theorem get?_put_of_openFile : (t.put l (.file b')).get? l = some (.file b') := by
  have hput := get?_put_append (t := t) (ne_nil_of_openFile h) (.file b') []
  rwa [List.append_nil] at hput

/-- To write to a file changes no other one. -/
theorem get?_put_eq_file_iff_of_openFile {l' : Location} (hne : l' ≠ l) {c : ByteArray} :
    (t.put l (.file b')).get? l' = some (.file c) ↔ t.get? l' = some (.file c) := by
  obtain ⟨hl, hm⟩ := openFile_eq_ok h
  by_cases hp : l <+: l'
  · obtain ⟨_ | ⟨name, r⟩, rfl⟩ := hp
    · exact absurd (List.append_nil l) hne
    · -- Nothing stands below a file, and nothing stood there.
      rw [get?_put_append (ne_nil_of_openFile h), get?_append]
      refine iff_of_false (fun hb => nomatch hb) fun hb => ?_
      obtain ⟨m, hg, hb⟩ := Option.bind_eq_some_iff.1 hb
      cases m with
      | file d => cases hb
      | directory es => cases hm _ hg
  · exact get?_put_eq_file_iff (reachable_of_locate hl) hp _

end OpenFile

/-! ## Paths that lead to files -/

/-- The path, from the root, leads to a file. -/
def HasFile (t : Tree) (p : Path) : Prop :=
  ∃ l b, t.locate p p = .ok l ∧ t.get? l = some (.file b)

/-- A path that leads to a file leads to one from then on. -/
theorem HasFile.keeps {p : Path} (h : t.HasFile p) (hk : t.Keeps t') : t'.HasFile p := by
  obtain ⟨l, b, hl, hb⟩ := h
  obtain ⟨b', hb'⟩ := hk.exists_file hb
  exact ⟨l, b', hk.locate hl, hb'⟩

/-- A file that is there can be written to. -/
theorem HasFile.exists_append {p : Path} (h : t.HasFile p) (content : ByteArray) :
    ∃ t', t.append p p content = .ok t' := by
  obtain ⟨l, b, hl, hb⟩ := h
  refine ⟨t.put l (.file (b ++ content)), ?_⟩
  rw [append, openFile, hl]
  dsimp only
  rw [hb]
  rfl

/-- A path that was written to leads to a file. -/
theorem hasFile_of_append {p : Path} {content : ByteArray} (h : t.append p p content = .ok t') :
    t'.HasFile p := by
  have hk := keeps_append h
  obtain ⟨⟨l, b⟩, ho, h⟩ := bind_eq_ok.1 h
  cases h
  exact ⟨l, b ++ content, hk.locate (openFile_eq_ok ho).1, get?_put_of_openFile ho _⟩

end Tree

end TestGrid.Files
