import TestGrid.Journal.Keeping
import TestGrid.Proofs.Tree
import TestGrid.Proofs.Work

/-!
# Writing to log files

A log file is named by a path without names `..`, so it stands where the names of the
path lead (`Tree.openFile_straight`). To write to it makes no directory and takes
nothing away: the tree is *filled* (`Tree.Fills`), and in a filled tree the same log
files can be opened (`Tree.Opens.fills`). What is written comes behind what the file
has, and nothing else changes (`Tree.content_put`).

So a record is taken by all of its handlers, one after the other: it is shown once for
each handler that is the screen, and its line is added to a log file once for each
handler that leads there (`Journal.exists_perform_handleAll`).
-/

namespace TestGrid

namespace Files

/-! ## Paths without names `..` -/

/-- There is no name `..` on the way. -/
def Path.Straight (p : Path) : Prop := ['.', '.'] ∉ p.parts

/-- A path is straight if its names `..` are carried out. -/
theorem Path.straight_normalized (p : Path) : p.normalized.Straight := by
  -- No name that is kept so far is `..`.
  have hkept (parts before : List Text) (h : ['.', '.'] ∉ before) :
      ['.', '.'] ∉ parts.foldl
        (fun before part => if part = ['.', '.'] then before.drop 1 else part :: before)
        before := by
    induction parts generalizing before with
    | nil => exact h
    | cons part parts ih =>
      refine ih _ ?_
      show ['.', '.'] ∉ if part = ['.', '.'] then before.drop 1 else part :: before
      split
      · exact fun hm => h (List.mem_of_mem_drop hm)
      · next hp => exact List.not_mem_cons_of_ne_of_not_mem (Ne.symm hp) h
  exact fun hm => hkept p.parts [] List.not_mem_nil (List.mem_reverse.1 hm)

namespace Tree

variable {t t' t'' : Tree}

/-- Names other than `..` lead on, and in front of the last one is a directory. -/
theorem walk_straight {here l : Location} {names : List Text} (hn : ['.', '.'] ∉ names)
    (h : t.walk here names = .ok l) :
    l = here ++ names ∧ (names ≠ [] → ∃ es, t.get? l.dropLast = some (.directory es)) := by
  fun_induction Tree.walk t here names with
  | case1 =>
    cases h
    exact ⟨(List.append_nil _).symm, fun hne => absurd rfl hne⟩
  | case2 | case3 | case4 => cases h
  | case5 here name names es hd _ ih =>
    rw [List.mem_cons, not_or] at hn
    rw [if_neg (Ne.symm hn.1)] at ih h
    obtain ⟨rfl, hlast⟩ := ih hn.2 h
    refine ⟨List.append_assoc .., fun _ => ?_⟩
    cases names with
    | nil =>
      rw [List.append_nil, List.dropLast_concat]
      exact ⟨es, hd⟩
    | cons name' names => exact hlast (List.cons_ne_nil _ _)

/-- What a file at the location has, nothing if there is none. -/
def content (t : Tree) (l : Location) : ByteArray :=
  match t.get? l with
  | some (.file b) => b
  | _ => .empty

theorem content_of_file {l : Location} {b : ByteArray} (h : t.get? l = some (.file b)) :
    t.content l = b := by
  rw [content, h]

/-- The content is the same if the same file is there, or none in both. -/
theorem content_congr {l l' : Location}
    (h : ∀ b, t.get? l = some (.file b) ↔ t'.get? l' = some (.file b)) :
    t.content l = t'.content l' := by
  by_cases hf : ∃ b, t.get? l = some (.file b)
  · obtain ⟨b, hb⟩ := hf
    rw [content_of_file hb, content_of_file ((h b).1 hb)]
  · have hf' : ¬∃ b, t'.get? l' = some (.file b) := fun ⟨b, hb⟩ => hf ⟨b, (h b).2 hb⟩
    have hnone {t : Tree} {l : Location} (hn : ¬∃ b, t.get? l = some (.file b)) :
        t.content l = .empty := by
      rw [content]
      split
      · next b hb => exact absurd ⟨b, hb⟩ hn
      · rfl
    rw [hnone hf, hnone hf']

/-- A file is opened with what it has, at the end of a path without names `..`, and a
    directory is in front of it. -/
theorem openFile_straight {p shown : Path} (hp : p.Straight) {l : Location} {b : ByteArray}
    (h : t.openFile p shown = .ok (l, b)) :
    l = p.parts ∧ b = t.content l ∧ ∃ es, t.get? l.dropLast = some (.directory es) := by
  have hne := ne_nil_of_openFile h
  have hl := (openFile_eq_ok h).1
  have hwalk : t.walk [] p.parts = .ok l := by
    rw [locate] at hl
    split at hl
    · cases hl
    · exact Fallible.mapError_eq_ok.1 hl
  obtain ⟨rfl, hlast⟩ := walk_straight hp hwalk
  refine ⟨rfl, ?_, hlast hne⟩
  rw [openFile, hl] at h
  dsimp only at h
  split at h
  · cases h
  · next hf =>
    cases h
    exact (content_of_file hf).symm
  · next hf =>
    cases h
    rw [content, hf]

/-! ## Trees with more in their files -/

/-- In front of something that stands in the tree, there are directories. -/
theorem exists_directory_of_append {l r : Location} {n : Node} (h : t.get? (l ++ r) = some n)
    (hr : r ≠ []) : ∃ es, t.get? l = some (.directory es) := by
  rw [get?_append] at h
  obtain ⟨m, hm, h⟩ := Option.bind_eq_some_iff.1 h
  cases m with
  | directory es => exact ⟨es, hm⟩
  | file b =>
    cases r with
    | nil => exact absurd rfl hr
    | cons name r => cases h

/-- The second tree has what the first one has, and no other directories. -/
structure Fills (t t' : Tree) : Prop where
  keeps : t.Keeps t'
  directories : ∀ l es, t'.get? l = some (.directory es) → ∃ es', t.get? l = some (.directory es')

theorem Fills.refl (t : Tree) : t.Fills t := ⟨.refl t, fun _ es h => ⟨es, h⟩⟩

theorem Fills.trans (h : t.Fills t') (h' : t'.Fills t'') : t.Fills t'' where
  keeps := h.keeps.trans h'.keeps
  directories l es hl := by
    obtain ⟨es', hl'⟩ := h'.directories l es hl
    exact h.directories l es' hl'

/-- The path leads to a file that can be opened. -/
def Opens (t : Tree) (p : Path) : Prop :=
  p.hasNull = false ∧ ∃ opened, t.openFile p p = .ok opened

theorem Opens.fills {p : Path} (h : t.Opens p) (hf : t.Fills t') : t'.Opens p := by
  obtain ⟨hn, ⟨l, b⟩, ho⟩ := h
  obtain ⟨hl, hm⟩ := openFile_eq_ok ho
  refine ⟨hn, ?_⟩
  rw [openFile, hf.keeps.locate hl]
  dsimp only
  split
  · next hd =>
    obtain ⟨es, hd⟩ := hf.directories _ _ hd
    cases hm _ hd
  · exact ⟨_, rfl⟩
  · exact ⟨_, rfl⟩

section

variable {p : Path} (h : t.Opens p) (hs : p.Straight) (b : ByteArray)

include h hs

/-- To write to a file makes no directory. -/
theorem fills_put : t.Fills (t.put p.parts (.file b)) := by
  obtain ⟨-, ⟨l, b'⟩, ho⟩ := h
  obtain ⟨rfl, -, es, hd⟩ := openFile_straight hs ho
  have hne := ne_nil_of_openFile ho
  refine ⟨keeps_put_of_openFile ho b, fun l' es' hl' => ?_⟩
  by_cases hp : p.parts <+: l'
  · -- At the location there is a file, and nothing is below it.
    obtain ⟨r, rfl⟩ := hp
    rw [get?_put_append hne] at hl'
    cases r <;> cases hl'
  · by_cases hp' : l' <+: p.parts
    · -- On the way there are the directories that there were.
      have hsplit : p.parts = p.parts.dropLast ++ [p.parts.getLast hne] :=
        (List.dropLast_append_getLast hne).symm
      rw [hsplit] at hp'
      rcases List.prefix_concat_iff.1 hp' with he | ⟨r, hr⟩
      · exact absurd (hsplit.trans he.symm ▸ List.prefix_rfl) hp
      · by_cases hnil : r = []
        · rw [← hr, hnil, List.append_nil] at hd
          exact ⟨es, hd⟩
        · exact exists_directory_of_append (hr ▸ hd) hnil
    · rw [get?, root_put hne, Node.get?_put_of_apart _ _ hp hp'] at hl'
      exact ⟨es', hl'⟩

/-- A file has what is written to it, and no other file changes. -/
theorem content_put (l : Location) :
    (t.put p.parts (.file b)).content l = if l = p.parts then b else t.content l := by
  obtain ⟨-, ⟨l', b'⟩, ho⟩ := h
  obtain ⟨rfl, -, -⟩ := openFile_straight hs ho
  split
  · next he =>
    rw [he]
    exact content_of_file (get?_put_of_openFile ho b)
  · next he => exact content_congr fun c => get?_put_eq_file_iff_of_openFile ho b he

end

end Tree

end Files

open Files

/-! ## Handlers -/

namespace Handler

/-- The location of the log file that a handler leads to. -/
def place? : Handler → Option Location
  | .screen => none
  | .file p => some p.parts

/-- The handler is the screen, or a log file that can be opened where its path says. -/
def Ready (t : Tree) : Handler → Prop
  | .screen => True
  | .file p => p.Straight ∧ t.Opens p

theorem Ready.fills {t t' : Tree} {h : Handler} (hr : h.Ready t) (hf : t.Fills t') :
    h.Ready t' := by
  cases h with
  | screen => trivial
  | file p => exact ⟨hr.1, hr.2.fills hf⟩

end Handler

namespace Journal

/-- A content with a line behind it as often as the number says. -/
def withLines (content line : ByteArray) (n : Nat) : ByteArray :=
  (List.replicate n line).foldl (· ++ ·) content

/-- The bytes come behind what the log file has. -/
theorem perform_appendLog {w : Workspace} {p : Path} (hs : p.Straight) (ho : w.tree.Opens p)
    (bytes : ByteArray) : (appendLog p bytes).perform w = (.ok (), { w with
      tree := w.tree.put p.parts (.file (w.tree.content p.parts ++ bytes)) }) := by
  obtain ⟨hn, ⟨l, b⟩, ho⟩ := ho
  obtain ⟨rfl, rfl, -⟩ := Tree.openFile_straight hs ho
  have ha : w.tree.append p p bytes =
      .ok (w.tree.put p.parts (.file (w.tree.content p.parts ++ bytes))) := by
    rw [Tree.append, ho]
    rfl
  rw [appendLog, hn]
  refine (Work.perform_get_bind _ w).trans ?_
  rw [ha]
  rfl

/-- The workspace when a handler has taken a record. -/
def handled (r : Record) (w : Workspace) : Handler → Workspace
  | .screen => { w with records := w.records ++ [r] }
  | .file p => { w with
      tree := w.tree.put p.parts
        (.file (w.tree.content p.parts ++ Text.encode (line w.gauge.moment r))) }

theorem perform_handle (r : Record) {w : Workspace} {a : Handler} (h : a.Ready w.tree) :
    (handle r a).perform w = (.ok (), handled r w a) := by
  cases a with
  | screen => rfl
  | file p => exact (Work.perform_get_bind _ w).trans (perform_appendLog h.1 h.2 _)

/-- A record is shown once for each handler that is the screen, and its line comes
    behind the content of a log file once for each handler that leads there. -/
theorem exists_perform_handleAll (r : Record) {w : Workspace} {handlers : List Handler}
    (h : ∀ a ∈ handlers, a.Ready w.tree) :
    ∃ tree, (handleAll r handlers).perform w = (.ok (), { w with
        tree, records := w.records ++ List.replicate (handlers.count .screen) r }) ∧
      w.tree.Fills tree ∧ ∀ l, tree.content l = withLines (w.tree.content l)
        (Text.encode (line w.gauge.moment r)) ((handlers.filterMap Handler.place?).count l) := by
  induction handlers generalizing w with
  | nil =>
    refine ⟨w.tree, ?_, .refl _, fun l => rfl⟩
    rw [List.count_nil, List.replicate_zero, List.append_nil]
    rfl
  | cons a handlers ih =>
    rw [List.forall_mem_cons] at h
    have hfirst : (handleAll r (a :: handlers)).perform w =
        (handleAll r handlers).perform (handled r w a) :=
      Work.perform_bind_ok (perform_handle r h.1) _
    cases a with
    | screen =>
      obtain ⟨tree, hp, hf, hc⟩ := ih (w := handled r w .screen) h.2
      refine ⟨tree, ?_, hf, hc⟩
      rw [hfirst, hp, handled, List.count_cons_self, List.replicate_succ, List.append_assoc,
        List.singleton_append]
    | file p =>
      obtain ⟨⟨hs, ho⟩, hrest⟩ := h
      have hfill : w.tree.Fills (handled r w (.file p)).tree := Tree.fills_put ho hs _
      obtain ⟨tree, hp, hf, hc⟩ := ih (w := handled r w (.file p))
        fun a ha => (hrest a ha).fills hfill
      refine ⟨tree, ?_, hfill.trans hf, fun l => ?_⟩
      · rw [hfirst, hp, handled, List.count_cons_of_ne (by simp)]
      · -- The line is behind the content at the location of this handler already.
        have hplaces : (Handler.file p :: handlers).filterMap Handler.place? =
            p.parts :: handlers.filterMap Handler.place? := rfl
        rw [hc, handled, Tree.content_put ho hs, hplaces, List.count_cons]
        by_cases he : l = p.parts
        · subst he
          simp [withLines, List.replicate_succ]
        · simp [he, Ne.symm he]

end Journal

end TestGrid
