import TypedClient.Proofs.FileTree.Beside

/-!
# `TypedClient.Proofs.FileTree.Staging`: what staging leaves

Staging makes the directories above the targets and writes the files beside them. The tree
that it leaves is the old one with new directories and files (`Laid`), whether or not it
came to its end and however the device failed.

* `Laid`: new directories on the way to some places, files written at others.
* `stageAt_stage`: one file is staged, or refused before anything is written, or its write is
  broken off (`TornWrite`).
* `staging_stageAll`: what is staged is a first part of the files, each under its staging
  name with its whole content, and nothing else was written but what a write that failed
  left behind (`torn`).
-/

set_option autoImplicit false

namespace TypedClient

namespace FileTree

variable {t t' t'' : FileTree} {p : Path} {r : Place} {c : ByteArray} {e : Entry}
variable {ds ds' ws ws' : List Place}

/-- A tree of a file system, seen from a directory in it. -/
structure WellFormed (t : FileTree) : Prop where
  rooted : t.Rooted
  working : t.find? t.working = some .directory

instance (t : FileTree) : Decidable t.WellFormed :=
  decidable_of_iff (t.Rooted ∧ t.find? t.working = some .directory)
    ⟨fun ⟨h₁, h₂⟩ => ⟨h₁, h₂⟩, fun h => ⟨h.rooted, h.working⟩⟩

/-- Every path starts in a directory: at the top, or in the working directory. -/
theorem WellFormed.start (h : t.WellFormed) (p : Path) :
    t.find? (p.start t.working) = some .directory := by
  unfold Path.start
  split
  · exact h.working
  · exact find?_nil t

/-- The tree `t'` is `t` with new directories on the way to the places `ds`, and with files
written at the places `ws`. -/
structure Laid (t t' : FileTree) (ds ws : List Place) : Prop where
  rooted : t'.Rooted
  working : t'.working = t.working
  find? : ∀ r, t'.find? r = t.find? r ∨
    (t.find? r = none ∧ t'.find? r = some .directory ∧ ∃ d ∈ ds, r <+: d) ∨
    (t.find? r ≠ some .directory ∧ (∃ c, t'.find? r = some (.file c)) ∧ r ∈ ws)

namespace Laid

/-- Doing nothing lays nothing. -/
theorem refl (ht : t.Rooted) : Laid t t ds [] := ⟨ht, rfl, fun _ => .inl rfl⟩

/-- Making directories lays no files. -/
theorem of_grown {q : Place} (h : Grown t t' q) : Laid t t' [q] [] := by
  refine ⟨h.rooted, h.working, fun r => ?_⟩
  rcases h.find? r with he | ⟨hn, hd, hr⟩
  · exact .inl he
  · exact .inr (.inl ⟨hn, hd, q, by simp, hr⟩)

/-- A write lays one file, with its content. -/
theorem of_write (ht : t.Rooted) (hn : p.Normal) (h : t.write p c = .ok t') :
    Laid t t' [] [p.place t.working] ∧ t'.find? (p.place t.working) = some (.file c) := by
  obtain ⟨-, hd, hdir, rfl⟩ := of_write_eq_ok hn h
  have hself : (t.put (p.place t.working) (.file c)).find? (p.place t.working)
      = some (.file c) := by
    rw [find?_put_of_ne_nil _ _ (hn.place_ne_nil _), if_pos rfl]
  refine ⟨⟨?_, rfl, fun r => ?_⟩, hself⟩
  · rw [Path.place_eq hn.ne_nil] at hdir ⊢
    exact ht.put hd (.inl hdir)
  · by_cases hr : r = p.place t.working
    · rw [hr]
      exact .inr (.inr ⟨hdir, ⟨c, hself⟩, by simp⟩)
    · left
      rw [find?_put_of_ne_nil _ _ (hn.place_ne_nil _), if_neg hr]

/-- What is laid at some places is laid at more. -/
theorem mono (h : Laid t t' ds ws) (hd : ds ⊆ ds') (hw : ws ⊆ ws') : Laid t t' ds' ws' := by
  refine ⟨h.rooted, h.working, fun r => ?_⟩
  rcases h.find? r with he | ⟨hn, hdir, d, hmem, hr⟩ | ⟨hdir, hc, hr⟩
  · exact .inl he
  · exact .inr (.inl ⟨hn, hdir, d, hd hmem, hr⟩)
  · exact .inr (.inr ⟨hdir, hc, hw hr⟩)

/-- Two steps of staging, one after the other, lay what either of them does. -/
theorem trans (h : Laid t t' ds ws) (h' : Laid t' t'' ds' ws') :
    Laid t t'' (ds ++ ds') (ws ++ ws') := by
  refine ⟨h'.rooted, h'.working.trans h.working, fun r => ?_⟩
  -- A new directory was no place for a file, and a file written no place for a directory.
  rcases h.find? r with he | ⟨hn, hdir, d, hmem, hr⟩ | ⟨hdir, ⟨c, hc⟩, hr⟩
  · rw [← he]
    rcases h'.find? r with he' | ⟨hn', hdir', d, hmem, hr⟩ | ⟨hdir', hc', hr⟩
    · exact .inl he'
    · exact .inr (.inl ⟨hn', hdir', d, List.mem_append_right _ hmem, hr⟩)
    · exact .inr (.inr ⟨hdir', hc', List.mem_append_right _ hr⟩)
  · rcases h'.find? r with he' | ⟨hn', -, -⟩ | ⟨hdir', -, -⟩
    · exact .inr (.inl ⟨hn, he'.trans hdir, d, List.mem_append_left _ hmem, hr⟩)
    · rw [hdir] at hn'
      cases hn'
    · exact absurd hdir hdir'
  · right
    right
    rcases h'.find? r with he' | ⟨hn', -, -⟩ | ⟨-, hc', hr'⟩
    · exact ⟨hdir, ⟨c, he'.trans hc⟩, List.mem_append_left _ hr⟩
    · rw [hc] at hn'
      cases hn'
    · exact ⟨hdir, hc', List.mem_append_left _ hr⟩

/-- What stands stays where nothing is written. -/
theorem keeps (h : Laid t t' ds ws) (hw : r ∉ ws) (hr : t.find? r = some e) :
    t'.find? r = some e := by
  rcases h.find? r with he | ⟨hn, -⟩ | ⟨-, -, hr'⟩
  · rwa [he]
  · rw [hr] at hn
    cases hn
  · exact absurd hr' hw

/-- A directory stays, for no file is written where one stands. -/
theorem directory (h : Laid t t' ds ws) (hr : t.find? r = some .directory) :
    t'.find? r = some .directory := by
  rcases h.find? r with he | ⟨-, hd, -⟩ | ⟨hdir, -⟩
  · rwa [he]
  · exact hd
  · exact absurd hr hdir

/-- Staging leaves a tree of a file system, seen from a directory in it. -/
theorem wellFormed (h : Laid t t' ds ws) (ht : t.WellFormed) : t'.WellFormed :=
  ⟨h.rooted, h.working ▸ h.directory ht.working⟩

/-- Where nothing is written, files are neither made nor unmade. -/
theorem file_iff (h : Laid t t' ds ws) (hw : r ∉ ws) :
    t'.find? r = some (.file c) ↔ t.find? r = some (.file c) := by
  refine ⟨fun hc => ?_, h.keeps hw⟩
  rcases h.find? r with he | ⟨-, hd, -⟩ | ⟨-, -, hr⟩
  · rwa [← he]
  · rw [hd] at hc
    cases hc
  · exact absurd hr hw

/-- Off the ways to the new directories, directories are neither made nor unmade. -/
theorem directory_iff (h : Laid t t' ds ws) (hd : ∀ d ∈ ds, ¬ r <+: d) :
    t'.find? r = some .directory ↔ t.find? r = some .directory := by
  rcases h.find? r with he | ⟨-, -, d, hmem, hr⟩ | ⟨hdir, ⟨c, hc⟩, -⟩
  · rw [he]
  · exact absurd hr (hd d hmem)
  · rw [hc]
    exact ⟨fun h => (nomatch h), fun h => absurd h hdir⟩

end Laid

end FileTree

namespace FileSink

variable {faults : Faults} {directory : Path} {files : List GeneratedFile} {t t' : FileTree}
variable {p : Path}

/-- How a target is staged. -/
def stage (p : Path) : Staged := ⟨p.staging, p⟩

/-- What a write that failed left behind. -/
def torn (fault : Option StagingFault) (w : Place) (p : Path) : List Place :=
  match fault with
  | some (.file (some _)) => [p.staging.place w]
  | _ => []

/-- The device breaks off a write that got through to the file, and a part of the content is
left under the staging name. -/
structure TornWrite (fault : Option StagingFault) (t t' : FileTree) (p : Path) (content : String)
    (left : ByteArray) : Prop where
  fault_eq : fault = some (.file (some left))
  reached : (stageAt t none (stage p) content).2 = .ok ()
  laid : t.Laid t' [p.above t.working] [p.staging.place t.working]
  left : t'.find? (p.staging.place t.working) = some (.file left)

/-- Making the directory of a target lays directories on the way to it and nothing else. -/
theorem laid_makeDirectories (ht : t.WellFormed) (hn : p.Normal) :
    t.Laid (t.makeDirectories p.parent).1 [p.above t.working] [] := by
  have hdots : ∀ n ∈ p.parent.names, n ≠ ".." :=
    fun n hmem => hn.ne_parent n (List.dropLast_subset _ hmem)
  have hgrown := FileTree.grown_makeDirectories ht.rooted (ht.start p.parent) hdots
  rw [Path.place_parent] at hgrown
  exact .of_grown hgrown

/-- Writing beside the target, in the tree with its directories. -/
theorem laid_write {tm : FileTree} {c : ByteArray} (ht : t.WellFormed) (hn : p.Normal)
    (hm : t.makeDirectories p.parent = (tm, .ok ())) (hw : tm.write p.staging c = .ok t') :
    t.Laid t' [p.above t.working] [p.staging.place t.working] ∧ p.staging.Fits ∧
      t'.find? (p.staging.place t.working) = some (.file c) := by
  have hlaid := laid_makeDirectories ht hn
  rw [hm] at hlaid
  obtain ⟨hput, hfile⟩ := FileTree.Laid.of_write hlaid.rooted hn.staging hw
  obtain ⟨hfits, -⟩ := FileTree.of_write_eq_ok hn.staging hw
  rw [hlaid.working] at hput hfile
  exact ⟨hlaid.trans hput, hfits, hfile⟩

/-- Staging one file. If it stops, then with no file written, or with a torn one. -/
theorem stageAt_stage (ht : t.WellFormed) (hn : p.Normal) (fault : Option StagingFault)
    (content : String) :
    (∃ t', stageAt t fault (stage p) content = (t', .ok ()) ∧
        t.Laid t' [p.above t.working] [p.staging.place t.working] ∧ p.staging.Fits ∧
        t'.find? (p.staging.place t.working) = some (.file content.toUTF8)) ∨
      ∃ t' e, stageAt t fault (stage p) content = (t', .error e) ∧
        (t.Laid t' [p.above t.working] [] ∨ ∃ left, TornWrite fault t t' p content left) := by
  have hmade : ∀ (tm : FileTree) (r : Except FileError Unit),
      t.makeDirectories p.parent = (tm, r) → t.Laid tm [p.above t.working] [] := by
    intro tm r hm
    have hlaid := laid_makeDirectories ht hn
    rwa [hm] at hlaid
  -- The cases are those of the program: the device before the directories, the directories, then
  -- the device and the file system at the write itself.
  unfold stageAt
  split
  · exact .inr ⟨t, .device, rfl, .inl (.refl ht.rooted)⟩
  · simp only [stage]
    split
    · rename_i tm e hm
      exact .inr ⟨tm, e, rfl, .inl (hmade tm _ hm)⟩
    · rename_i tm hm
      unfold writeStaged
      split
      · exact .inr ⟨tm, .device, rfl, .inl (hmade tm _ hm)⟩
      · rename_i left hfault
        cases hw : tm.write p.staging left with
        | error e => exact .inr ⟨tm, e, rfl, .inl (hmade tm _ hm)⟩
        | ok t' =>
          obtain ⟨hlaid, -, hleft⟩ := laid_write ht hn hm hw
          obtain ⟨t'', hw'⟩ := FileTree.write_eq_ok_of_eq_ok hw content.toUTF8
          have hreached : (stageAt t none (stage p) content).2 = .ok () := by
            simp only [stageAt, stage, hm, writeStaged, hw']
          exact .inr ⟨t', .device, rfl, .inr ⟨left, rfl, hreached, hlaid, hleft⟩⟩
      · cases hw : tm.write p.staging content.toUTF8 with
        | error e => exact .inr ⟨tm, e, rfl, .inl (hmade tm _ hm)⟩
        | ok t' => exact .inl ⟨t', rfl, laid_write ht hn hm hw⟩

/-- A file whose staging stops is laid where its write was torn, and nowhere if it was not. -/
theorem TornWrite.laid_torn {fault : Option StagingFault} {content : String}
    (h : t.Laid t' [p.above t.working] [] ∨ ∃ left, TornWrite fault t t' p content left) :
    t.Laid t' [p.above t.working] (torn fault t.working p) := by
  rcases h with hlaid | ⟨left, htorn⟩
  · exact hlaid.mono (List.Subset.refl _) (List.nil_subset _)
  · rw [htorn.fault_eq]
    exact htorn.laid

/-! ### Staging all files -/

/-- The targets are paths whose names stand for themselves, and no two of them are the same. -/
structure Distinct (directory : Path) (files : List GeneratedFile) : Prop where
  normal : ∀ f ∈ files, (target directory f).Normal
  ne : files.Pairwise fun f g => target directory f ≠ target directory g

instance (directory : Path) (files : List GeneratedFile) : Decidable (Distinct directory files) :=
  decidable_of_iff
    ((∀ f ∈ files, (target directory f).Normal) ∧
      files.Pairwise fun f g => target directory f ≠ target directory g)
    ⟨fun ⟨h₁, h₂⟩ => ⟨h₁, h₂⟩, fun h => ⟨h.normal, h.ne⟩⟩

/-- Files that are staged under different names are so without some of them. -/
theorem Distinct.sublist {part : List GeneratedFile} (h : Distinct directory files)
    (hpart : part.Sublist files) : Distinct directory part :=
  ⟨fun f hf => h.normal f (hpart.subset hf), h.ne.sublist hpart⟩

/-- No two of the files are staged under the same name. -/
theorem Distinct.staging_ne (h : Distinct directory files) (w : Place) :
    files.Pairwise fun f g =>
      (target directory f).staging.place w ≠ (target directory g).staging.place w := by
  refine h.ne.imp_of_mem fun hf hg hne heq => hne ?_
  have hplace := Path.place_eq_of_beside_eq (h.normal _ hf).ne_nil (h.normal _ hg).ne_nil rfl heq
  exact Path.eq_of_place_eq rfl hplace.1

/-- The targets are paths whose names stand for themselves, and keep clear of each other. -/
structure Separate (directory : Path) (files : List GeneratedFile) : Prop where
  normal : ∀ f ∈ files, (target directory f).Normal
  unrelated : files.Pairwise fun f g => (target directory f).Unrelated (target directory g)

instance (directory : Path) (files : List GeneratedFile) : Decidable (Separate directory files) :=
  decidable_of_iff
    ((∀ f ∈ files, (target directory f).Normal) ∧
      files.Pairwise fun f g => (target directory f).Unrelated (target directory g))
    ⟨fun ⟨h₁, h₂⟩ => ⟨h₁, h₂⟩, fun h => ⟨h.normal, h.unrelated⟩⟩

/-- Targets that keep clear of each other are different. -/
theorem Separate.distinct (h : Separate directory files) : Distinct directory files := by
  refine ⟨h.normal, h.unrelated.imp fun hu heq => hu.not_above ?_⟩
  exact heq ▸ List.prefix_rfl

/-- The first target keeps clear of each later one, and each later one of the first. -/
theorem Separate.clear {f g : GeneratedFile} (h : Separate directory (f :: files))
    (hg : g ∈ files) (w : Place) :
    Path.Clear w (target directory f) (target directory g) ∧
      Path.Clear w (target directory g) (target directory f) := by
  have hf' := h.normal f List.mem_cons_self
  have hg' := h.normal g (List.mem_cons_of_mem _ hg)
  have hu := (List.pairwise_cons.mp h.unrelated).1 g hg
  exact ⟨hu.clear hf' hg' rfl, hu.symm.clear hg' hf' rfl⟩

/-- Of two targets each keeps clear of the other, or they are the same. -/
theorem Separate.eq_or_clear {f g : GeneratedFile} (h : Separate directory files) (hf : f ∈ files)
    (hg : g ∈ files) (w : Place) :
    f = g ∨ Path.Clear w (target directory f) (target directory g) := by
  have hall : f = g ∨ (target directory f).Unrelated (target directory g) := by
    refine List.Pairwise.forall_of_forall_of_flip
      (R := fun f g => f = g ∨ (target directory f).Unrelated (target directory g))
      (fun _ _ => .inl rfl) (h.unrelated.imp fun hu => .inr hu)
      (h.unrelated.imp fun hu => .inr hu.symm) hf hg
  exact hall.imp_right fun hu => hu.clear (h.normal f hf) (h.normal g hg) rfl

/-- No target is on the way to another one or to itself. -/
theorem Separate.not_place_prefix_above {f g : GeneratedFile} (h : Separate directory files)
    (hf : f ∈ files) (hg : g ∈ files) (w : Place) :
    ¬ (target directory f).place w <+: (target directory g).above w := by
  intro hpre
  rcases h.eq_or_clear hf hg w with rfl | hclear
  · exact Path.not_place_prefix_above (h.normal f hf).ne_nil w hpre
  · exact hclear.target.not_below (hpre.trans (Path.above_prefix_place _ w))

/-- No file is staged at a target, be it its own or another's. -/
theorem Separate.place_ne_staging {f g : GeneratedFile} (h : Separate directory files)
    (hf : f ∈ files) (hg : g ∈ files) (w : Place) :
    (target directory f).place w ≠ (target directory g).staging.place w := by
  rcases h.eq_or_clear hf hg w with rfl | hclear
  · exact (h.normal f hf).place_ne_staging w
  · exact hclear.staging.ne.symm

/-- No file is staged where something is kept, be it for its own target or for another. -/
theorem Separate.backup_ne_staging {f g : GeneratedFile} (h : Separate directory files)
    (hf : f ∈ files) (hg : g ∈ files) (w : Place) :
    (target directory f).backup.place w ≠ (target directory g).staging.place w := by
  rcases h.eq_or_clear hf hg w with rfl | hclear
  · exact (Path.staging_ne_backup _ w).symm
  · exact hclear.staging.ne_backup.symm

/-- Nothing is kept at a target, be it its own or another's. -/
theorem Separate.place_ne_backup {f g : GeneratedFile} (h : Separate directory files)
    (hf : f ∈ files) (hg : g ∈ files) (w : Place) :
    (target directory f).place w ≠ (target directory g).backup.place w := by
  rcases h.eq_or_clear hf hg w with rfl | hclear
  · exact (h.normal f hf).place_ne_backup w
  · exact hclear.backup.ne.symm

/-- What the file at which staging stopped left behind, `n` files being staged. -/
def tornAt (faults : Faults) (directory : Path) (files : List GeneratedFile) (i : Nat) (w : Place)
    (n : Nat) : List Place :=
  match files[n]? with
  | some f => torn (faults.staging (i + n)) w (target directory f)
  | none => []

/-- Counting the files staged from the second one on. -/
theorem tornAt_cons (faults : Faults) (directory : Path) (f : GeneratedFile)
    (files : List GeneratedFile) (i : Nat) (w : Place) (n : Nat) :
    tornAt faults directory (f :: files) i w (n + 1)
      = tornAt faults directory files (i + 1) w n := by
  have hi : i + (n + 1) = i + 1 + n := by omega
  simp only [tornAt, List.getElem?_cons_succ, hi]

/-- What is torn is one of the staging names. -/
theorem mem_tornAt {i n : Nat} {w r : Place} (h : r ∈ tornAt faults directory files i w n) :
    ∃ f ∈ files, r = (target directory f).staging.place w := by
  unfold tornAt at h
  split at h
  · rename_i f hf
    refine ⟨f, List.mem_of_getElem? hf, ?_⟩
    unfold torn at h
    split at h
    · exact List.mem_singleton.mp h
    · cases h
  · cases h

/-- The tree `t'` and the list of what is staged are what staging leaves, files being
numbered from `i`. -/
structure Staging (faults : Faults) (directory : Path) (files : List GeneratedFile) (i : Nat)
    (t t' : FileTree) (staged : List Staged) : Prop where
  laid : t.Laid t' (files.map fun f => (target directory f).above t.working)
    (staged.map (fun s => s.temporary.place t.working)
      ++ tornAt faults directory files i t.working staged.length)
  staged_eq : staged = (files.take staged.length).map fun f => stage (target directory f)
  written : ∀ f ∈ files.take staged.length, (target directory f).staging.Fits ∧
    t'.find? ((target directory f).staging.place t.working) = some (.file f.content.toUTF8)

/-- Why staging stops at a file that is refused. -/
def stagingStop (path : String) : FileError → StagingStop
  | .nulInPath => .defect (.file .nulInPath)
  | _ => .refused path

/-- One file is staged after the other, up to the first one that is refused. -/
theorem stageAll_cons {f : GeneratedFile} {i : Nat} (hn : (target directory f).Normal) :
    stageAll faults directory (f :: files) i t =
      match stageAt t (faults.staging i) (stage (target directory f)) f.content with
      | (t, .error e) => (t, [], .error (stagingStop f.path e))
      | (t, .ok ()) =>
        let (t, staged, r) := stageAll faults directory files (i + 1) t
        (t, stage (target directory f) :: staged, r) := by
  simp only [stageAll, Path.withSuffix?_staging hn]
  rw [← stage]
  rcases stageAt t (faults.staging i) (stage (target directory f)) f.content with ⟨t', e | _⟩
  · cases e <;> rfl
  · rfl

/-- Staging the files in turn leaves what `Staging` says, and if it came to its end every one of
them is staged. -/
theorem staging_stageAll {staged : List Staged} {r : Except StagingStop Unit} {i : Nat}
    (ht : t.WellFormed) (hs : Distinct directory files)
    (h : stageAll faults directory files i t = (t', staged, r)) :
    Staging faults directory files i t t' staged ∧ (r = .ok () → staged.length = files.length) := by
  -- By induction on the files. What is laid so far and what the rest lays are put together by
  -- `Laid.trans`, and a file that is staged outlasts the rest because no other has its name.
  induction files generalizing i t staged with
  | nil =>
    cases h
    exact ⟨⟨.refl ht.rooted, rfl, by simp⟩, fun _ => rfl⟩
  | cons f rest ih =>
    have hn := hs.normal f List.mem_cons_self
    rw [stageAll_cons hn] at h
    -- Either the file is staged and the rest follows from the tree it leaves, or it stops here.
    rcases stageAt_stage ht hn (faults.staging i) f.content with
      ⟨t₁, hstage, hlaid, hfits, hfile⟩ | ⟨t₁, e, hstage, hstopped⟩
    · rcases hrest : stageAll faults directory rest (i + 1) t₁ with ⟨t₂, staged₂, r₂⟩
      rw [hstage] at h
      simp only [hrest] at h
      obtain ⟨rfl, rfl, rfl⟩ :
          t₂ = t' ∧ stage (target directory f) :: staged₂ = staged ∧ r₂ = r := by
        simpa using h
      obtain ⟨hr, hlen⟩ := ih (hlaid.wellFormed ht) (hs.sublist (List.sublist_cons_self _ _)) hrest
      have hlaid₂ := hr.laid
      rw [hlaid.working] at hlaid₂
      refine ⟨⟨?_, ?_, ?_⟩, fun hok => congrArg (· + 1) (hlen hok)⟩
      · rw [List.length_cons, tornAt_cons]
        exact hlaid.trans hlaid₂
      · rw [List.length_cons, List.take_succ_cons, List.map_cons, ← hr.staged_eq]
      · intro g hg
        rw [List.length_cons, List.take_succ_cons] at hg
        rcases List.mem_cons.mp hg with rfl | hg
        · refine ⟨hfits, hlaid₂.keeps ?_ hfile⟩
          -- No later file is staged under the same name.
          have hne : ∀ f' ∈ rest, (target directory g).staging.place t.working
              ≠ (target directory f').staging.place t.working :=
            (List.pairwise_cons.mp (hs.staging_ne t.working)).1
          rw [List.mem_append]
          rintro (hmem | hmem)
          · rw [hr.staged_eq, List.map_map] at hmem
            obtain ⟨f', hf', he⟩ := List.mem_map.mp hmem
            exact hne f' (List.mem_of_mem_take hf') he.symm
          · obtain ⟨f', hf', he⟩ := mem_tornAt hmem
            exact hne f' hf' he
        · obtain ⟨hfits', hfile'⟩ := hr.written g hg
          rw [hlaid.working] at hfile'
          exact ⟨hfits', hfile'⟩
    · have hstop : t' = t₁ ∧ staged = [] ∧ r ≠ .ok () := by
        rw [hstage] at h
        cases h
        exact ⟨rfl, rfl, fun h => nomatch h⟩
      obtain ⟨rfl, rfl, hr⟩ := hstop
      refine ⟨⟨?_, rfl, by simp⟩, fun hok => absurd hok hr⟩
      exact (TornWrite.laid_torn hstopped).mono (by simp) (List.Subset.refl _)

/-- Staging one file is refused for a NUL only if its path or its staging name holds one. -/
theorem stageAt_ne_nul {content : String} {fault : Option StagingFault}
    (h : ∀ n ∈ p.names, '\x00' ∉ n.toList)
    (hb : ∀ n ∈ p.staging.names, '\x00' ∉ n.toList) :
    (stageAt t fault (stage p) content).2 ≠ .error .nulInPath := by
  have hmade := FileTree.makeDirectoriesWithin_ne_nul (t := t) (p := p.parent)
    p.parent.names.length fun n hn => h n (List.dropLast_subset _ hn)
  unfold stageAt
  split
  · exact fun he => nomatch he
  · simp only [stage]
    split
    · rename_i tm e hm
      rw [← FileTree.makeDirectories, hm] at hmade
      exact hmade
    · rename_i tm hm
      unfold writeStaged
      have hwrite : ∀ c, tm.write p.staging c ≠ .error .nulInPath :=
        fun c => FileTree.write_ne_nul hb
      split
      · exact fun he => nomatch he
      · rename_i left hfault
        split
        · exact fun he => nomatch he
        · rename_i e hw
          exact fun he => hwrite left (hw.trans (by simpa using he))
      · split
        · exact fun he => nomatch he
        · rename_i e hw
          exact fun he => hwrite _ (hw.trans (by simpa using he))

/-- Staging breaks down only over a path that holds NUL. -/
theorem stageAll_ne_defect {i : Nat} (hn : ∀ f ∈ files, (target directory f).Normal)
    (hnul : ∀ f ∈ files, ∀ n ∈ (target directory f).names, '\x00' ∉ n.toList) (d : Defect) :
    (stageAll faults directory files i t).2.2 ≠ .error (.defect d) := by
  induction files generalizing i t with
  | nil => exact fun h => nomatch h
  | cons f rest ih =>
    have hnf := hn f List.mem_cons_self
    have hnulf := hnul f List.mem_cons_self
    have hstage := @stageAt_ne_nul t _ f.content (faults.staging i) hnulf
      (Path.no_nul_staging hnf hnulf)
    rw [stageAll_cons hnf]
    rcases he : stageAt t (faults.staging i) (stage (target directory f)) f.content with ⟨t₁, e | _⟩
    · rw [he] at hstage
      cases e with
      | nulInPath => exact absurd rfl hstage
      | _ => exact fun h => nomatch h
    · exact ih (fun g hg => hn g (List.mem_cons_of_mem _ hg))
        (fun g hg => hnul g (List.mem_cons_of_mem _ hg))

end FileSink

end TypedClient
