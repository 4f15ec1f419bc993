import TypedClient.Log
import TypedClient.Proofs.FileTree.Rooted

/-!
# `TypedClient.Proofs.FileTree.Locate`: where paths lead, and what operations do there

A path whose names stand for themselves is `Normal`. It leads to one place, whatever the
tree: the place of its names below the top or the working directory. Whether an operation
gets there depends on the lengths of the names (`Fits`) and on the directory above.

* `locate_eq`, `of_locate_eq_ok`: a path is located if it fits and its directory is there,
  and only then.
* `of_write_eq_ok`, `unlinkIfPresent_eq_ok`, `of_unlinkIfPresent_eq_ok`, `replace_of_file`,
  `of_replace_eq_ok`: what each operation asks for, and the tree that it leaves.
* `grown_makeDirectories`: making directories puts directories where nothing was, on the way
  to a path, and does nothing else.
-/

set_option autoImplicit false

namespace TypedClient

namespace Path

/-- Every name of the path stands for itself. -/
structure Normal (p : Path) : Prop where
  ne_nil : p.names ≠ []
  isName : ∀ n ∈ p.names, isName n = true
  ne_parent : ∀ n ∈ p.names, n ≠ ".."
  no_slash : ∀ n ∈ p.names, '/' ∉ n.toList

instance (p : Path) : Decidable p.Normal :=
  decidable_of_iff
    (p.names ≠ [] ∧ (∀ n ∈ p.names, isName n = true) ∧ (∀ n ∈ p.names, n ≠ "..") ∧
      ∀ n ∈ p.names, '/' ∉ n.toList)
    ⟨fun ⟨h₁, h₂, h₃, h₄⟩ => ⟨h₁, h₂, h₃, h₄⟩,
      fun h => ⟨h.ne_nil, h.isName, h.ne_parent, h.no_slash⟩⟩

/-- A file system takes the path. -/
structure Fits (p : Path) : Prop where
  no_nul : ∀ n ∈ p.names, '\x00' ∉ n.toList
  text_le : p.text.utf8ByteSize ≤ FileTree.maxPathLength
  name_le : ∀ n ∈ p.names, n.utf8ByteSize ≤ FileTree.maxNameLength

instance (p : Path) : Decidable p.Fits :=
  decidable_of_iff
    ((∀ n ∈ p.names, '\x00' ∉ n.toList) ∧ p.text.utf8ByteSize ≤ FileTree.maxPathLength ∧
      ∀ n ∈ p.names, n.utf8ByteSize ≤ FileTree.maxNameLength)
    ⟨fun ⟨h₁, h₂, h₃⟩ => ⟨h₁, h₂, h₃⟩, fun h => ⟨h.no_nul, h.text_le, h.name_le⟩⟩

/-- Where relative and absolute paths start. -/
def start (p : Path) (working : Place) : Place := if p.root = "" then working else []

/-- The place of a path, if a name stands for itself. -/
def place (p : Path) (working : Place) : Place := p.start working ++ p.names

/-- The place of the directory that a path is in. -/
def above (p : Path) (working : Place) : Place := p.start working ++ p.names.dropLast

/-- The names of a path that has any are those of its directory and its last one. -/
theorem dropLast_append_name {p : Path} (hne : p.names ≠ []) :
    p.names.dropLast ++ [p.name] = p.names := by
  unfold name
  rw [List.getLast?_eq_some_getLast hne]
  exact List.dropLast_concat_getLast hne

/-- The place of a path is in the place of its directory, under its last name. -/
theorem place_eq {p : Path} (hne : p.names ≠ []) (w : Place) :
    p.place w = p.above w ++ [p.name] := by
  unfold place above
  rw [List.append_assoc, dropLast_append_name hne]

/-- The directory of a path is on the way to it. -/
theorem above_prefix_place (p : Path) (w : Place) : p.above w <+: p.place w :=
  (List.prefix_append_right_inj _).mpr (List.dropLast_prefix _)

/-- A path is not on the way to its own directory. -/
theorem not_place_prefix_above {p : Path} (hne : p.names ≠ []) (w : Place) :
    ¬ p.place w <+: p.above w := by
  intro hpre
  have hlen := hpre.length_le
  rw [place_eq hne, List.length_append, List.length_singleton] at hlen
  omega

/-- The place of the parent of a path is that of its directory. -/
theorem place_parent (p : Path) (w : Place) : p.parent.place w = p.above w := rfl

/-- The last name of a normal path is one of its names, and no default. -/
theorem Normal.name_mem {p : Path} (hn : p.Normal) : p.name ∈ p.names := by
  unfold name
  rw [List.getLast?_eq_some_getLast hn.ne_nil]
  exact List.getLast_mem hn.ne_nil

/-- A normal path does not lead to the top of the tree, where nothing is put or erased. -/
theorem Normal.place_ne_nil {p : Path} (hn : p.Normal) (w : Place) : p.place w ≠ [] := by
  rw [place_eq hn.ne_nil]
  simp

/-- A normal path ends in a name that can be given to something. -/
theorem Normal.endsInName {p : Path} (hn : p.Normal) : FileTree.endsInName p = true := by
  have hname := hn.isName _ hn.name_mem
  have hparent := hn.ne_parent _ hn.name_mem
  have hne : p.name ≠ "" := by
    intro he
    simp [Path.isName, he] at hname
  simp [FileTree.endsInName, hne, hparent]

end Path

namespace FileTree

variable {t t' : FileTree} {p q : Path} {c : ByteArray}

/-! ### Locating -/

/-- Names are entered one after the other, each from a directory. -/
theorem of_foldlM_enter_eq_ok {names : List String} (hdots : ∀ n ∈ names, n ≠ "..")
    {base place : Place} (h : names.foldlM t.enter base = .ok place) :
    place = base ++ names ∧ (∀ n ∈ names, n.utf8ByteSize ≤ maxNameLength) ∧
      (names ≠ [] → t.find? (base ++ names.dropLast) = some .directory) := by
  induction names generalizing base with
  | nil =>
    cases (show Except.ok base = Except.ok place from h)
    simp
  | cons n rest ih =>
    rw [List.foldlM_cons, bind_eq_ok_iff] at h
    obtain ⟨next, hn, hrest⟩ := h
    -- The name is entered from a directory, is no step up and is short enough.
    unfold enter at hn
    split at hn
    · cases hn
    · cases hn
    · rename_i hbase
      rw [if_neg (hdots n List.mem_cons_self)] at hn
      split at hn
      · cases hn
      · rename_i hlen
        cases hn
        obtain ⟨hplace, hsize, hdir⟩ := ih (fun m hm => hdots m (List.mem_cons_of_mem _ hm)) hrest
        refine ⟨by simp [hplace], ?_, fun _ => ?_⟩
        · intro m hm
          rcases List.mem_cons.mp hm with rfl | hm
          · omega
          · exact hsize m hm
        · -- The last directory is the one entered from now, or one further on.
          by_cases hnil : rest = []
          · simpa [hnil] using hbase
          · have := hdir hnil
            rwa [List.append_assoc, List.singleton_append, ← List.dropLast_cons_of_ne_nil hnil]
              at this

/-- Names can be entered if they are short enough and the last directory is there. -/
theorem foldlM_enter_eq_ok (ht : t.Rooted) {names : List String} (hdots : ∀ n ∈ names, n ≠ "..")
    (hsize : ∀ n ∈ names, n.utf8ByteSize ≤ maxNameLength) {base : Place}
    (hdir : names ≠ [] → t.find? (base ++ names.dropLast) = some .directory) :
    names.foldlM t.enter base = .ok (base ++ names) := by
  induction names generalizing base with
  | nil => rw [List.append_nil]; rfl
  | cons n rest ih =>
    have hlast := hdir (by simp)
    -- A directory that is there has all those above it.
    have hbase : t.find? base = some .directory := by
      by_cases hself : base = base ++ (n :: rest).dropLast
      · rw [hself]
        exact hlast
      · exact ht.above (List.prefix_append _ _) hself hlast
    have hn : t.enter base n = .ok (base ++ [n]) := by
      have hlen := hsize n List.mem_cons_self
      simp only [enter, hbase]
      rw [if_neg (hdots n List.mem_cons_self), if_neg (by omega)]
    rw [List.foldlM_cons, hn]
    show rest.foldlM t.enter (base ++ [n]) = _
    rw [ih (fun m hm => hdots m (List.mem_cons_of_mem _ hm))
      (fun m hm => hsize m (List.mem_cons_of_mem _ hm)), List.append_assoc]
    · rfl
    · intro hnil
      rw [List.append_assoc, List.singleton_append, ← List.dropLast_cons_of_ne_nil hnil]
      exact hlast

/-- What is located fits, is at the place of the path, and stands in a directory that is there. A
path with no names is located without one. -/
theorem of_locate_eq_ok' {place : Place} (hdots : ∀ n ∈ p.names, n ≠ "..")
    (h : t.locate p = .ok place) :
    p.Fits ∧ place = p.place t.working ∧
      (p.names ≠ [] → t.find? (p.above t.working) = some .directory) := by
  -- The checks of the path as a whole come before the walk, so each is known to have passed.
  unfold locate at h
  split at h
  · cases h
  · rename_i hnul
    split at h
    · cases h
    · rename_i htext
      obtain ⟨hplace, hsize, hdir⟩ := of_foldlM_enter_eq_ok hdots h
      refine ⟨⟨?_, by omega, hsize⟩, hplace, hdir⟩
      intro n hn hmem
      exact hnul (List.any_eq_true.mpr ⟨n, hn, by simpa using hmem⟩)

/-- What a normal path locates fits, is at the place of the path, and stands in a directory that is
there. -/
theorem of_locate_eq_ok {place : Place} (hn : p.Normal) (h : t.locate p = .ok place) :
    p.Fits ∧ place = p.place t.working ∧ t.find? (p.above t.working) = some .directory := by
  obtain ⟨hf, hplace, hdir⟩ := of_locate_eq_ok' hn.ne_parent h
  exact ⟨hf, hplace, hdir hn.ne_nil⟩

/-- A path that fits is located name by name. -/
theorem locate_of_fits (hf : p.Fits) :
    t.locate p = p.names.foldlM t.enter (p.start t.working) := by
  have hnul : (p.names.any fun n => n.toList.contains '\x00') = false := by
    rw [List.any_eq_false]
    intro n hmem
    simpa using hf.no_nul n hmem
  have htext := hf.text_le
  unfold locate
  rw [hnul, if_neg (by simp), if_neg (by omega)]
  rfl

/-- A path that climbs nowhere is located if it fits and its directory is there. -/
theorem locate_of_above (ht : t.Rooted) (hdots : ∀ n ∈ p.names, n ≠ "..") (hf : p.Fits)
    (hd : p.names ≠ [] → t.find? (p.above t.working) = some .directory) :
    t.locate p = .ok (p.place t.working) := by
  rw [locate_of_fits hf]
  exact foldlM_enter_eq_ok ht hdots hf.name_le hd

/-- A normal path is located if it fits and its directory is there. -/
theorem locate_eq (ht : t.Rooted) (hn : p.Normal) (hf : p.Fits)
    (hd : t.find? (p.above t.working) = some .directory) :
    t.locate p = .ok (p.place t.working) :=
  locate_of_above ht hn.ne_parent hf fun _ => hd

/-- What stands at the place of a path has its directory there. -/
theorem above_of_find? {e : Entry} (ht : t.Rooted) (hn : p.Normal)
    (he : t.find? (p.place t.working) = some e) :
    t.find? (p.above t.working) = some .directory := by
  rw [Path.place_eq hn.ne_nil] at he
  exact ht _ _ e he

/-- Entering one directory after the other is never refused for a NUL: that is checked before. -/
theorem foldlM_enter_ne_nul (t : FileTree) (names : List String) (base : Place) :
    names.foldlM t.enter base ≠ .error .nulInPath := by
  induction names generalizing base with
  | nil =>
    intro h
    cases (show (Except.ok base : Except FileError Place) = .error .nulInPath from h)
  | cons n rest ih =>
    rw [List.foldlM_cons, ne_eq, bind_eq_error_iff]
    rintro (h | ⟨next, -, h⟩)
    · unfold enter at h
      split at h
      · cases h
      · cases h
      · split at h
        · cases h
        · split at h <;> cases h
    · exact ih next h

/-- Only a path that holds NUL is refused for holding it. -/
theorem locate_ne_nul (h : ∀ n ∈ p.names, '\x00' ∉ n.toList) :
    t.locate p ≠ .error .nulInPath := by
  have hnul : (p.names.any fun n => n.toList.contains '\x00') = false := by
    rw [List.any_eq_false]
    intro n hmem
    simpa using h n hmem
  unfold locate
  rw [hnul, if_neg (by simp)]
  split
  · exact fun h => nomatch h
  · exact foldlM_enter_ne_nul t _ _

/-! ### Looking, writing, unlinking -/

/-- Where the directory is there, asking whether something exists gives an answer, and the right
one. -/
theorem exists?_eq (ht : t.Rooted) (hn : p.Normal) (hf : p.Fits)
    (hd : t.find? (p.above t.working) = some .directory) :
    t.exists? p = .ok (t.find? (p.place t.working)).isSome := by
  have hl := locate_eq ht hn hf hd
  cases hc : t.find? (p.place t.working) with
  | none =>
    simp [exists?, stat, hl, hc, bind, Except.bind, throw, throwThe, MonadExceptOf.throw]
  | some e => simp [exists?, stat, hl, hc, bind, Except.bind, pure, Except.pure]

/-- Writing is refused for a NUL only if the path holds one. -/
theorem write_ne_nul (h : ∀ n ∈ p.names, '\x00' ∉ n.toList) :
    t.write p c ≠ .error .nulInPath := by
  unfold write
  rw [ne_eq, bind_eq_error_iff]
  rintro (hl | ⟨place, -, hp⟩)
  · exact locate_ne_nul h hl
  · split at hp <;> cases hp

/-- What a write asks for: the path fits, its directory is there and no directory stands at the
place. It puts the file there and does nothing else. -/
theorem of_write_eq_ok (hn : p.Normal) (h : t.write p c = .ok t') :
    p.Fits ∧ t.find? (p.above t.working) = some .directory ∧
      t.find? (p.place t.working) ≠ some .directory ∧
      t' = t.put (p.place t.working) (.file c) := by
  unfold write at h
  rw [bind_eq_ok_iff] at h
  obtain ⟨place, hl, h⟩ := h
  obtain ⟨hf, rfl, hd⟩ := of_locate_eq_ok hn hl
  split at h
  · cases h
  · rename_i hne
    cases h
    exact ⟨hf, hd, hne, rfl⟩

/-- Whether a file can be written does not depend on the content. -/
theorem write_eq_ok_of_eq_ok (h : t.write p c = .ok t') (c' : ByteArray) :
    ∃ t'', t.write p c' = .ok t'' := by
  unfold write at h ⊢
  obtain ⟨place, hplace, h⟩ := bind_eq_ok_iff.mp h
  split at h
  · cases h
  · rename_i hfile
    refine ⟨t.put place (.file c'), bind_eq_ok_iff.mpr ⟨place, hplace, ?_⟩⟩
    split
    · exact absurd ‹_› hfile
    · rfl

/-- A file can be unlinked, and so can nothing. -/
theorem unlinkIfPresent_eq_ok (ht : t.Rooted) (hn : p.Normal) (hf : p.Fits)
    (hd : t.find? (p.above t.working) = some .directory)
    (hdir : t.find? (p.place t.working) ≠ some .directory) :
    ∃ t', t.unlinkIfPresent p = .ok t' := by
  have hl := locate_eq ht hn hf hd
  cases hc : t.find? (p.place t.working) with
  | none =>
    refine ⟨t, ?_⟩
    simp [unlinkIfPresent, unlink, hl, hc, bind, Except.bind, throw, throwThe,
      MonadExceptOf.throw]
  | some e =>
    cases e with
    | directory => exact absurd hc hdir
    | file c =>
      refine ⟨t.erase (p.place t.working), ?_⟩
      simp [unlinkIfPresent, unlink, hl, hc, bind, Except.bind, pure, Except.pure]

/-- What can be unlinked is no directory, and is gone afterwards. -/
theorem of_unlinkIfPresent_eq_ok (ht : t.Rooted) (hn : p.Normal) (hf : p.Fits)
    (h : t.unlinkIfPresent p = .ok t') :
    t.find? (p.place t.working) ≠ some .directory ∧ t'.Rooted ∧ t'.working = t.working ∧
      ∀ r, t'.find? r = if r = p.place t.working then none else t.find? r := by
  cases hc : t.find? (p.place t.working) with
  | none =>
    have he : t' = t := by
      -- Whether it is the name or a directory on the way that is missing, nothing is done.
      unfold unlinkIfPresent unlink at h
      cases hl : t.locate p with
      | error e =>
        rw [hl] at h
        cases e <;> cases h
        rfl
      | ok place =>
        obtain ⟨-, rfl, -⟩ := of_locate_eq_ok hn hl
        simp only [hl, hc, bind, Except.bind, throw, throwThe, MonadExceptOf.throw] at h
        cases h
        rfl
    rw [he]
    refine ⟨by simp, ht, rfl, fun r => ?_⟩
    split
    · rename_i hr
      rw [hr, hc]
    · rfl
  | some e =>
    have hl := locate_eq ht hn hf (above_of_find? ht hn hc)
    cases e with
    | file c =>
      simp only [unlinkIfPresent, unlink, hl, hc, bind, Except.bind, pure, Except.pure] at h
      cases h
      exact ⟨by simp, ht.erase hc, rfl, find?_erase_of_ne_nil t (hn.place_ne_nil _)⟩
    | directory =>
      simp [unlinkIfPresent, unlink, hl, hc, bind, Except.bind, throw, throwThe,
        MonadExceptOf.throw] at h

/-! ### Renaming -/

/-- A file can be renamed to where no directory stands. -/
theorem replace_of_file (ht : t.Rooted) (hp : p.Normal) (hq : q.Normal) (hfp : p.Fits)
    (hfq : q.Fits) (hc : t.find? (p.place t.working) = some (.file c))
    (hd : t.find? (q.above t.working) = some .directory)
    (hdir : t.find? (q.place t.working) ≠ some .directory)
    (hne : p.place t.working ≠ q.place t.working) :
    t.replace p q = .ok (t.relocate (p.place t.working) (q.place t.working)) := by
  have hlp := locate_eq ht hp hfp (above_of_find? ht hp hc)
  have hlq := locate_eq ht hq hfq hd
  cases he : t.find? (q.place t.working) with
  | none =>
    simp [replace, hlp, hlq, hc, he, hp.endsInName, hq.endsInName, bind, Except.bind, pure,
      Except.pure]
  | some e =>
    cases e with
    | file c' =>
      simp [replace, hlp, hlq, hc, he, hp.endsInName, hq.endsInName, bind, Except.bind, pure,
        Except.pure, hne]
    | directory => exact absurd he hdir

/-- What can be given the name of another. -/
structure Replaceable (t : FileTree) (p q : Place) : Prop where
  source : ∃ e, t.find? p = some e
  /-- A file replaces a file and a directory a directory. -/
  target : ∀ e, t.find? q = some e → (e = .directory ↔ t.find? p = some .directory)
  bare : t.Bare q

/-- What a rename between two places, neither above the other, asks for: both paths fit, the
directory of the target is there, and what stands at the target can be replaced. The tree that it
leaves is the renamed one. -/
theorem of_replace_eq_ok (ht : t.Rooted) (hp : p.Normal) (hq : q.Normal)
    (hpq : ¬ p.place t.working <+: q.place t.working)
    (hqp : ¬ q.place t.working <+: p.place t.working) (h : t.replace p q = .ok t') :
    p.Fits ∧ q.Fits ∧ t.find? (q.above t.working) = some .directory ∧
      t.Replaceable (p.place t.working) (q.place t.working) ∧
      Renamed t t' (p.place t.working) (q.place t.working) := by
  have hne : p.place t.working ≠ q.place t.working := fun h => hpq (h ▸ List.prefix_refl _)
  unfold replace at h
  rw [bind_eq_ok_iff] at h
  obtain ⟨source, hlp, h⟩ := h
  rw [bind_eq_ok_iff] at h
  obtain ⟨target, hlq, h⟩ := h
  obtain ⟨hfp, rfl, -⟩ := of_locate_eq_ok hp hlp
  obtain ⟨hfq, rfl, hd⟩ := of_locate_eq_ok hq hlq
  refine ⟨hfp, hfq, hd, ?_⟩
  rw [hp.endsInName, hq.endsInName] at h
  -- In each case that goes on, the tree is relocated, and nothing stands below the target.
  suffices hs : t.Replaceable (p.place t.working) (q.place t.working) ∧
      t' = t.relocate (p.place t.working) (q.place t.working) by
    refine ⟨hs.1, ?_⟩
    rw [hs.2]
    exact renamed_relocate hpq hqp hs.1.bare
  simp only [Bool.not_true, Bool.or_self, Bool.false_eq_true, ↓reduceIte] at h
  cases hs : t.find? (p.place t.working) with
  | none =>
    rw [hs] at h
    cases h
  | some e =>
    cases ht' : t.find? (q.place t.working) with
    | none =>
      -- Nothing stands at the target, so nothing stands below it.
      have hbare : t.Bare (q.place t.working) := ht.bare (by simp [ht'])
      rw [hs, ht'] at h
      cases h
      exact ⟨⟨⟨e, hs⟩, by simp [ht'], hbare⟩, rfl⟩
    | some e' =>
      rw [hs, ht'] at h
      cases e with
      | file c =>
        cases e' with
        | file c' =>
          have hbare : t.Bare (q.place t.working) := ht.bare (by simp [ht'])
          simp only [if_neg hne] at h
          cases h
          exact ⟨⟨⟨_, hs⟩, by simp [hs, ht'], hbare⟩, rfl⟩
        | directory => cases h
      | directory =>
        cases e' with
        | file c' => cases h
        | directory =>
          simp only [if_neg hne] at h
          -- A directory replaces a directory only if that one is empty.
          cases hch : t.hasChildren (q.place t.working) with
          | true =>
            rw [hch] at h
            cases h
          | false =>
            rw [hch] at h
            cases h
            exact ⟨⟨⟨_, hs⟩, by simp [hs, ht'], bare_of_not_hasChildren hch⟩, rfl⟩

/-! ### Making directories -/

/-- The tree `t'` is `t` with directories where nothing was, on the way to a place. -/
structure Grown (t t' : FileTree) (q : Place) : Prop where
  rooted : t'.Rooted
  working : t'.working = t.working
  find? : ∀ r, t'.find? r = t.find? r ∨
    t.find? r = none ∧ t'.find? r = some .directory ∧ r <+: q

namespace Grown

/-- Doing nothing makes no directories. -/
theorem refl {q : Place} (ht : t.Rooted) : Grown t t q := ⟨ht, rfl, fun _ => .inl rfl⟩

/-- Directories made on the way to one place and then on the way to a place below it. -/
theorem trans {t'' : FileTree} {q q' : Place} (h : Grown t t' q) (h' : Grown t' t'' q')
    (hq : q <+: q') : Grown t t'' q' where
  rooted := h'.rooted
  working := h'.working.trans h.working
  find? r := by
    -- A place changes at most once: a directory that was made stays one.
    rcases h'.find? r with he' | ⟨hn', hd', hr'⟩
    · rw [he']
      rcases h.find? r with he | ⟨hn, hd, hr⟩
      · exact .inl he
      · exact .inr ⟨hn, hd, hr.trans hq⟩
    · rcases h.find? r with he | ⟨-, hd, -⟩
      · exact .inr ⟨he ▸ hn', hd', hr'⟩
      · rw [hd] at hn'
        cases hn'

/-- What stands stays. -/
theorem keeps {q r : Place} {e : Entry} (h : Grown t t' q) (hr : t.find? r = some e) :
    t'.find? r = some e := by
  rcases h.find? r with he | ⟨hn, -, -⟩
  · rwa [he]
  · rw [hr] at hn
    cases hn

end Grown

/-- Making one directory puts it where nothing was. -/
theorem grown_makeDirectory (ht : t.Rooted) (hs : t.find? (p.start t.working) = some .directory)
    (hdots : ∀ n ∈ p.names, n ≠ "..") (h : t.makeDirectory p = .ok t') :
    Grown t t' (p.place t.working) := by
  unfold makeDirectory at h
  rw [bind_eq_ok_iff] at h
  obtain ⟨place, hl, h⟩ := h
  obtain ⟨-, rfl, hd⟩ := of_locate_eq_ok' hdots hl
  cases hc : t.find? (p.place t.working) with
  | some e =>
    rw [hc] at h
    cases h
  | none =>
    rw [hc] at h
    cases h
    -- A path with no names leads to where it starts, and a directory is there.
    have hne : p.names ≠ [] := by
      intro hnil
      rw [Path.place, hnil, List.append_nil, hs] at hc
      cases hc
    rw [Path.place_eq hne] at hc ⊢
    refine ⟨ht.put (hd hne) (.inr rfl), rfl, fun r => ?_⟩
    rw [find?_put_of_ne_nil _ _ (by simp)]
    split
    · rename_i hself
      rw [hself]
      exact .inr ⟨hc, rfl, List.prefix_refl _⟩
    · exact .inl rfl

/-- Settling keeps the tree that was made, if one was. -/
theorem settle_fst (t : FileTree) (p : Path) (r : Except FileError FileTree) :
    (t.settle p r).1 = t ∨ r = .ok (t.settle p r).1 := by
  unfold settle
  split
  · exact .inr rfl
  · exact .inl rfl
  · exact .inl rfl
  · split <;> exact .inl rfl

/-- A refusal to make a directory changes nothing, whether or not it counts as one. -/
theorem grown_settle (ht : t.Rooted) (hs : t.find? (p.start t.working) = some .directory)
    (hdots : ∀ n ∈ p.names, n ≠ "..") :
    Grown t (t.settle p (t.makeDirectory p)).1 (p.place t.working) := by
  rcases settle_fst t p (t.makeDirectory p) with he | he
  · rw [he]
    exact .refl ht
  · exact grown_makeDirectory ht hs hdots he

/-- Making directories climbs to one that is there. On the way back the directories above are made
first, and each one in the tree that has them. -/
theorem grown_makeDirectoriesWithin (n : Nat) (ht : t.Rooted)
    (hs : t.find? (p.start t.working) = some .directory) (hdots : ∀ n ∈ p.names, n ≠ "..") :
    Grown t (makeDirectoriesWithin n t p).1 (p.place t.working) := by
  -- By induction on the number of steps up that are left; the path gets shorter with it.
  induction n generalizing p with
  | zero => exact grown_settle ht hs hdots
  | succ n ih =>
    have hparent := @ih p.parent hs fun m hm => hdots m (List.dropLast_subset _ hm)
    rw [Path.place_parent] at hparent
    unfold makeDirectoriesWithin
    split
    · split
      · rename_i t₁ hmk
        rw [hmk] at hparent
        -- The directories above are there now; the last one is made in the tree with them.
        have hs₁ : t₁.find? (p.start t₁.working) = some .directory := by
          rw [hparent.working]
          exact hparent.keeps hs
        have hlast := grown_settle hparent.rooted hs₁ hdots
        rw [hparent.working] at hlast
        exact hparent.trans hlast (Path.above_prefix_place p _)
      · rename_i t₁ e hmk
        rw [hmk] at hparent
        exact hparent.trans (.refl hparent.rooted) (Path.above_prefix_place p _)
    · rename_i r hr
      exact grown_settle ht hs hdots

/-- Making directories puts directories where nothing was, on the way to the path. -/
theorem grown_makeDirectories (ht : t.Rooted)
    (hs : t.find? (p.start t.working) = some .directory) (hdots : ∀ n ∈ p.names, n ≠ "..") :
    Grown t (t.makeDirectories p).1 (p.place t.working) :=
  grown_makeDirectoriesWithin _ ht hs hdots

/-- A directory is refused for a NUL only if its path holds one. -/
theorem makeDirectory_ne_nul (h : ∀ n ∈ p.names, '\x00' ∉ n.toList) :
    t.makeDirectory p ≠ .error .nulInPath := by
  unfold makeDirectory
  rw [ne_eq, bind_eq_error_iff]
  rintro (hl | ⟨place, -, hp⟩)
  · exact locate_ne_nul h hl
  · split at hp <;> cases hp

/-- Settling adds no errors of its own. -/
theorem of_settle_eq_error {r : Except FileError FileTree} {e : FileError}
    (h : (t.settle p r).2 = .error e) : r = .error e := by
  unfold settle at h
  split at h
  · cases h
  · cases h
    rfl
  · cases h
    rfl
  · split at h
    · cases h
    · cases h
      rfl

/-- Making the directories on the way is refused for a NUL only if the path holds one. -/
theorem makeDirectoriesWithin_ne_nul (n : Nat) (h : ∀ n ∈ p.names, '\x00' ∉ n.toList) :
    (makeDirectoriesWithin n t p).2 ≠ .error .nulInPath := by
  induction n generalizing p with
  | zero => exact fun he => makeDirectory_ne_nul h (of_settle_eq_error he)
  | succ n ih =>
    have hparent := @ih p.parent fun m hm => h m (List.dropLast_subset _ hm)
    unfold makeDirectoriesWithin
    split
    · split
      · exact fun he => makeDirectory_ne_nul h (of_settle_eq_error he)
      · rename_i t₁ e hmk
        rw [hmk] at hparent
        exact hparent
    · exact fun he => makeDirectory_ne_nul h (of_settle_eq_error he)

end FileTree

end TypedClient
