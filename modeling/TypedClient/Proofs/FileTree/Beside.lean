import TypedClient.FileTree.Sink
import TypedClient.Proofs.FileTree.Locate
import TypedClient.Proofs.Path

/-!
# `TypedClient.Proofs.FileTree.Beside`: the names beside a target

A file is staged, and what it replaces is kept, under names beside the target: the last
name with a suffix. A path that has such a name leads next to the target, and if a file
system takes it then it takes the target as well.

* `withSuffix?_eq`: a normal path has a path beside it for either suffix.
* `Fits.of_beside`: the target is shorter than what is beside it.
* `Unrelated`: the condition on two targets. `Unrelated.clear` derives from it that no
  place of the one is touched when a file is moved to the other.
-/

set_option autoImplicit false

namespace TypedClient

open FileSink (stagingSuffix backupSuffix)

namespace Path

variable {p q : Path} {s s' : String} {w r : Place}

/-- The path with a suffix added to its last name. -/
def beside (p : Path) (suffix : String) : Path :=
  { p with names := p.names.dropLast ++ [p.name ++ suffix] }

/-- The path under which a file is staged. -/
def staging (p : Path) : Path := p.beside stagingSuffix

/-- The path under which a replaced file is kept. -/
def backup (p : Path) : Path := p.beside backupSuffix

/-- The two suffixes have the same length, so a name with the one is told from a name with the other
by what was added alone. -/
@[simp] theorem length_stagingSuffix : stagingSuffix.length = 16 := by decide

/-- The suffix of a backup is as long as that of a staged file. -/
@[simp] theorem length_backupSuffix : backupSuffix.length = 16 := by decide

/-- A file is not staged under the name under which what it replaces is kept. -/
theorem stagingSuffix_ne_backupSuffix : stagingSuffix ≠ backupSuffix := by decide

/-! ### One path beside another -/

/-- What is beside a target stands in the same directory, under the longer name. -/
theorem place_beside (p : Path) (s : String) (w : Place) :
    (p.beside s).place w = p.above w ++ [p.name ++ s] := by
  unfold place above beside
  rw [List.append_assoc]
  rfl

/-- The place where a file is staged, in the directory of its target. -/
theorem place_staging (p : Path) (w : Place) :
    p.staging.place w = p.above w ++ [p.name ++ stagingSuffix] := place_beside p _ w

/-- The place where what a file replaces is kept, in the directory of its target. -/
theorem place_backup (p : Path) (w : Place) :
    p.backup.place w = p.above w ++ [p.name ++ backupSuffix] := place_beside p _ w

/-- A path and a path beside it have the same directory. -/
theorem above_beside (p : Path) (s : String) (w : Place) : (p.beside s).above w = p.above w := by
  unfold above beside
  rw [List.dropLast_concat]
  rfl

/-- The names of a path beside a normal one stand for themselves too: a suffix of two characters and
no slash makes no name that means something. -/
theorem Normal.beside (hn : p.Normal) (hlen : 2 ≤ s.length) (hslash : '/' ∉ s.toList) :
    (p.beside s).Normal := by
  have hmem : ∀ n ∈ (p.beside s).names, n ∈ p.names ∨ n = p.name ++ s := by
    intro n hn
    rcases List.mem_append.mp hn with hn | hn
    · exact .inl (List.dropLast_subset _ hn)
    · exact .inr (List.mem_singleton.mp hn)
  -- The last name was not empty, so it is now longer than the names that mean something.
  have hpos : 1 ≤ p.name.length := by
    have hname := hn.isName _ hn.name_mem
    rw [Nat.one_le_iff_ne_zero, ne_eq, String.length_eq_zero_iff]
    intro he
    simp [Path.isName, he] at hname
  have hlong : 3 ≤ (p.name ++ s).length := by
    rw [String.length_append]
    omega
  have hne : ∀ u : String, u.length ≤ 2 → p.name ++ s ≠ u := by
    rintro u hu rfl
    omega
  refine ⟨by simp [Path.beside], fun n hn' => ?_, fun n hn' => ?_, fun n hn' => ?_⟩
  · rcases hmem n hn' with h | rfl
    · exact hn.isName n h
    · simp [Path.isName, hne "" (by decide), hne "." (by decide)]
  · rcases hmem n hn' with h | rfl
    · exact hn.ne_parent n h
    · exact hne ".." (by decide)
  · rcases hmem n hn' with h | rfl
    · exact hn.no_slash n h
    · rw [String.toList_append, List.mem_append]
      exact fun h => h.elim (hn.no_slash _ hn.name_mem) hslash

/-- A staging name holds NUL only if the path of the target does. -/
theorem no_nul_staging (hn : p.Normal) (h : ∀ n ∈ p.names, '\x00' ∉ n.toList) :
    ∀ n ∈ p.staging.names, '\x00' ∉ n.toList := by
  intro n hmem
  rcases List.mem_append.mp hmem with hmem | hmem
  · exact h n (List.dropLast_subset _ hmem)
  · rw [List.mem_singleton.mp hmem, String.toList_append, List.mem_append]
    rintro (hname | hsuffix)
    · exact h _ hn.name_mem hname
    · exact absurd hsuffix (by decide)

/-- The path under which a file is staged is normal if that of its target is. -/
theorem Normal.staging (hn : p.Normal) : p.staging.Normal := hn.beside (by decide) (by decide)

/-- The path under which what a file replaces is kept is normal if that of its target is. -/
theorem Normal.backup (hn : p.Normal) : p.backup.Normal := hn.beside (by decide) (by decide)

/-- The sink gets the path beside a normal one: adding the suffix to the last name is not
refused. -/
theorem withSuffix?_eq (hn : p.Normal) (hlen : 2 ≤ s.length) (hslash : '/' ∉ s.toList) :
    FileSink.withSuffix? p s = some (p.beside s) := by
  have hb := hn.beside hlen hslash
  have hmem : p.name ++ s ∈ (p.beside s).names := by simp [Path.beside]
  have hname := hb.isName _ hmem
  have hnoslash := hb.no_slash _ hmem
  unfold FileSink.withSuffix? withName?
  rw [if_neg]
  · rfl
  · have hcontains : (p.name ++ s).toList.contains '/' = false := by
      simpa only [List.contains_eq_mem, decide_eq_false_iff_not] using hnoslash
    simp only [hname, hcontains, List.isEmpty_eq_false_iff.mpr hn.ne_nil]
    decide

/-- A normal path has a path to stage its file under. -/
theorem withSuffix?_staging (hn : p.Normal) :
    FileSink.withSuffix? p stagingSuffix = some p.staging :=
  withSuffix?_eq hn (by decide) (by decide)

/-- A normal path has a path to keep under it what its file replaces. -/
theorem withSuffix?_backup (hn : p.Normal) :
    FileSink.withSuffix? p backupSuffix = some p.backup :=
  withSuffix?_eq hn (by decide) (by decide)

/-- If a file system takes the path beside a target, it takes the target. -/
theorem Fits.of_beside (hn : p.Normal) (hs : s ≠ "") (hf : (p.beside s).Fits) : p.Fits := by
  have hsplit := dropLast_append_name hn.ne_nil
  have hmem : ∀ n ∈ p.names, n ∈ (p.beside s).names ∨ n = p.name := by
    intro n hn'
    rw [← hsplit] at hn'
    rcases List.mem_append.mp hn' with h | h
    · exact .inl (List.mem_append_left _ h)
    · exact .inr (List.mem_singleton.mp h)
  have hlast : p.name ++ s ∈ (p.beside s).names := by simp [Path.beside]
  refine ⟨fun n hn' => ?_, ?_, fun n hn' => ?_⟩
  · rcases hmem n hn' with h | rfl
    · exact hf.no_nul n h
    · have h := hf.no_nul _ hlast
      rw [String.toList_append, List.mem_append] at h
      exact fun hnul => h (.inl hnul)
  · have htext := hf.text_le
    have hs' : s.utf8ByteSize ≠ 0 := fun h => hs (String.utf8ByteSize_eq_zero_iff.mp h)
    have he : (p.beside s).root ++ "/".intercalate (p.beside s).names
        = (p.root ++ "/".intercalate p.names) ++ s := by
      show p.root ++ "/".intercalate (p.names.dropLast ++ [p.name ++ s]) = _
      rw [intercalate_concat_append, hsplit, String.append_assoc]
    unfold text at htext ⊢
    simp only [he] at htext
    rw [if_neg (fun h => hs (String.append_eq_empty_iff.mp h).2),
      String.utf8ByteSize_append] at htext
    dsimp only
    split
    · decide
    · omega
  · rcases hmem n hn' with h | rfl
    · exact hf.name_le n h
    · have h := hf.name_le _ hlast
      rw [String.utf8ByteSize_append] at h
      omega

/-! ### Places beside each other -/

/-- Of two places in one directory the one is above the other only if they are the same. -/
theorem concat_prefix_concat_iff {d : Place} {m n : String} :
    d ++ [m] <+: d ++ [n] ↔ m = n := by
  rw [List.prefix_append_right_inj]
  simp

/-- A name with something added to it is another name. -/
theorem append_ne_self (n : String) (hs : s ≠ "") : n ++ s ≠ n := by
  intro h
  have hlen := congrArg String.length h
  rw [String.length_append] at hlen
  have hzero : s.length = 0 := by omega
  exact hs (String.length_eq_zero_iff.mp hzero)

/-- What was added to two names is told from the names if it is of the same length. -/
theorem append_inj_of_length {m n : String} (hlen : s.length = s'.length) (h : m ++ s = n ++ s') :
    m = n ∧ s = s' := by
  have hlist := congrArg String.toList h
  rw [String.toList_append, String.toList_append] at hlist
  -- The cut is at the same distance from the end of the one text.
  obtain ⟨hm, hs⟩ := List.append_inj' hlist (by rwa [String.length_toList, String.length_toList])
  exact ⟨String.toList_injective hm, String.toList_injective hs⟩

/-- A target is not above what is beside it. -/
theorem not_place_prefix_beside (hne : p.names ≠ []) (hs : s ≠ "") :
    ¬ p.place w <+: (p.beside s).place w := by
  rw [place_eq hne, place_beside, concat_prefix_concat_iff]
  exact Ne.symm (append_ne_self _ hs)

/-- What is beside a target is not above it. -/
theorem not_beside_prefix_place (hne : p.names ≠ []) (hs : s ≠ "") :
    ¬ (p.beside s).place w <+: p.place w := by
  rw [place_eq hne, place_beside, concat_prefix_concat_iff]
  exact append_ne_self _ hs

/-- A target is not above its backup, so moving it there is no move into itself. -/
theorem Normal.not_place_prefix_backup (hn : p.Normal) (w : Place) :
    ¬ p.place w <+: p.backup.place w :=
  not_place_prefix_beside hn.ne_nil (by decide)

/-- A backup is not above its target, so putting it back is no move into itself. -/
theorem Normal.not_backup_prefix_place (hn : p.Normal) (w : Place) :
    ¬ p.backup.place w <+: p.place w :=
  not_beside_prefix_place hn.ne_nil (by decide)

/-- What is beside a target is not at the target. -/
theorem place_ne_beside (hne : p.names ≠ []) (hs : s ≠ "") :
    p.place w ≠ (p.beside s).place w := by
  intro he
  have hpre : p.place w <+: (p.beside s).place w := he ▸ List.prefix_rfl
  exact not_place_prefix_beside hne hs hpre

/-- A file is not staged at its target. -/
theorem Normal.place_ne_staging (hn : p.Normal) (w : Place) : p.place w ≠ p.staging.place w :=
  place_ne_beside hn.ne_nil (by decide)

/-- What a file replaces is not kept where it stood. -/
theorem Normal.place_ne_backup (hn : p.Normal) (w : Place) : p.place w ≠ p.backup.place w :=
  place_ne_beside hn.ne_nil (by decide)

/-- The staging name of a target is not above its backup: they are two names in one directory. -/
theorem not_staging_prefix_backup : ¬ p.staging.place w <+: p.backup.place w := by
  unfold staging backup
  rw [place_beside, place_beside, concat_prefix_concat_iff]
  exact fun h => stagingSuffix_ne_backupSuffix (append_inj_of_length (by simp) h).2

/-- The staged file and the backup of one target are at different places. -/
theorem staging_ne_backup (p : Path) (w : Place) : p.staging.place w ≠ p.backup.place w := by
  intro h
  have hpre : p.staging.place w <+: p.backup.place w := h ▸ List.prefix_rfl
  exact not_staging_prefix_backup hpre

/-- Paths beside two others are the same only if the others are. -/
theorem place_eq_of_beside_eq (hp : p.names ≠ []) (hq : q.names ≠ []) (hlen : s.length = s'.length)
    (h : (p.beside s).place w = (q.beside s').place w) : p.place w = q.place w ∧ s = s' := by
  rw [place_beside, place_beside] at h
  obtain ⟨habove, hname⟩ := List.append_inj' h rfl
  obtain ⟨hname, hs⟩ := append_inj_of_length hlen (List.singleton_inj.mp hname)
  refine ⟨?_, hs⟩
  rw [place_eq hp, place_eq hq, habove, hname]

/-! ### Targets that keep clear of each other -/

/-- The condition on two targets: neither is the other, a directory on the way to it, or
the name under which the other is staged or kept. -/
structure Unrelated (p q : Path) : Prop where
  not_above : ¬ p.names <+: q.names
  not_below : ¬ q.names <+: p.names
  ne_staging : p ≠ q.staging ∧ q ≠ p.staging
  ne_backup : p ≠ q.backup ∧ q ≠ p.backup

instance (p q : Path) : Decidable (Unrelated p q) :=
  decidable_of_iff
    (¬ p.names <+: q.names ∧ ¬ q.names <+: p.names ∧ (p ≠ q.staging ∧ q ≠ p.staging) ∧
      (p ≠ q.backup ∧ q ≠ p.backup))
    ⟨fun ⟨h₁, h₂, h₃, h₄⟩ => ⟨h₁, h₂, h₃, h₄⟩,
      fun h => ⟨h.not_above, h.not_below, h.ne_staging, h.ne_backup⟩⟩

/-- Which of two targets comes first does not matter. -/
theorem Unrelated.symm (h : Unrelated p q) : Unrelated q p :=
  ⟨h.not_below, h.not_above, h.ne_staging.symm, h.ne_backup.symm⟩

/-- A place that is touched neither by staging a file for the path nor by moving it
there. -/
structure Outside (p : Path) (w r : Place) : Prop where
  not_below : ¬ p.place w <+: r
  ne_staging : r ≠ p.staging.place w
  ne_backup : r ≠ p.backup.place w

/-- All places of the second path are outside the first. -/
structure Clear (w : Place) (p q : Path) : Prop where
  target : p.Outside w (q.place w)
  staging : p.Outside w (q.staging.place w)
  backup : p.Outside w (q.backup.place w)

/-- A place outside a path is not the place of the path. -/
theorem Outside.ne (h : p.Outside w r) : r ≠ p.place w :=
  fun he => h.not_below (by simp [he])

/-- Of two paths with one root each place has only one: if they lead to the same place they are the
same. -/
theorem eq_of_place_eq (hroot : p.root = q.root) (h : p.place w = q.place w) : p = q := by
  obtain ⟨root, names⟩ := p
  obtain ⟨root', names'⟩ := q
  cases (show root = root' from hroot)
  have hnames : names = names' := List.append_cancel_left h
  rw [hnames]

/-- Whether the place of one path is above that of another can be read off the names, if the paths
have one root. -/
theorem place_prefix_iff (hroot : p.root = q.root) :
    p.place w <+: q.place w ↔ p.names <+: q.names := by
  unfold place start
  rw [hroot, List.prefix_append_right_inj]

/-- Where one of two unrelated targets is staged and kept is outside the other. -/
theorem Unrelated.outside_beside (h : Unrelated p q) (hp : p.Normal) (hq : q.Normal)
    (hroot : p.root = q.root) (hs : s = stagingSuffix ∨ s = backupSuffix) :
    p.Outside w ((q.beside s).place w) := by
  have hlen : s.length = 16 := by
    rcases hs with rfl | rfl
    · exact length_stagingSuffix
    · exact length_backupSuffix
  have hne : p ≠ q.beside s := by
    rcases hs with rfl | rfl
    · exact h.ne_staging.1
    · exact h.ne_backup.1
  have hplace : p.place w ≠ q.place w := by
    intro he
    have hpre : p.place w <+: q.place w := he ▸ List.prefix_rfl
    exact h.not_above ((place_prefix_iff hroot).mp hpre)
  -- A place beside `q` is below `p` only as `p` itself or through the directory of `q`; and it is
  -- beside `p` only if the targets have one name.
  refine ⟨fun hpre => ?_, fun he => ?_, fun he => ?_⟩
  · rw [place_beside, List.prefix_concat_iff] at hpre
    rcases hpre with he | hpre
    · rw [← place_beside] at he
      exact hne (eq_of_place_eq hroot he)
    · exact h.not_above ((place_prefix_iff hroot).mp (hpre.trans (above_prefix_place q w)))
  · exact hplace (place_eq_of_beside_eq hq.ne_nil hp.ne_nil (by simp [hlen]) he).1.symm
  · exact hplace (place_eq_of_beside_eq hq.ne_nil hp.ne_nil (by simp [hlen]) he).1.symm

/-- Moving a file to one of two unrelated targets touches nothing of the other. -/
theorem Unrelated.clear (h : Unrelated p q) (hp : p.Normal) (hq : q.Normal)
    (hroot : p.root = q.root) : Clear w p q where
  target :=
    ⟨fun hpre => h.not_above ((place_prefix_iff hroot).mp hpre),
      fun he => h.ne_staging.2 (eq_of_place_eq hroot.symm he),
      fun he => h.ne_backup.2 (eq_of_place_eq hroot.symm he)⟩
  staging := h.outside_beside hp hq hroot (.inl rfl)
  backup := h.outside_beside hp hq hroot (.inr rfl)

end Path

end TypedClient
