import TypedClient.Proofs.FileTree.Call

/-!
# `TypedClient.Proofs.FileTree.AllOrNothing`: what a call of the sink leaves

The sink is to write all files or none. Its targets are `Separate`, and the tree is one of
a file system.

* `FileSink.delivered_of_ok`: a call that succeeds, however the device behaved, leaves every
  file with its content, removes what it used on the way and changes no other file.
* `FileSink.restored_of_error`: if nothing stands where the sink stages and keeps files and
  no directory at a target, a call whose renames fail leaves the files as they were.
* `FileSink.restored_iff_recoverable`: with a device that does not fail, a call that fails
  leaves the files as they were, and says why, exactly if nothing that it displaced is lost
  for good (`Recoverable`). `FileSink.directory_at_target_not_restored` is a call where
  something is.
* `FileSink.recoverable_of_vacant`: nothing is lost if nothing was in the way.
-/

set_option autoImplicit false

namespace TypedClient.FileSink

variable {faults : Faults} {directory : Path} {files : List GeneratedFile}
variable {t t₁ t₂ t' : FileTree} {staged : List Staged} {moved : List Moved} {w : Place}
variable {ps : List Path} {i : Nat} {stop : Option Path}

/-! ### A call that succeeds -/

/-- What a call that succeeds leaves: the files with their contents, nothing of what was
used on the way, and every other file as it was. -/
structure Delivered (s s' : FileSink) (files : List GeneratedFile) : Prop where
  target : ∀ f ∈ files, s'.tree.find? ((target s.directory f).place s.tree.working)
    = some (.file f.content.toUTF8)
  staging : ∀ f ∈ files,
    s'.tree.find? ((FileSink.target s.directory f).staging.place s.tree.working) = none
  /-- Where a file was replaced, no backup remains. -/
  backup : ∀ f ∈ files,
    s.tree.find? ((FileSink.target s.directory f).place s.tree.working) ≠ none →
      s'.tree.find? ((FileSink.target s.directory f).backup.place s.tree.working) = none
  unchanged : ∀ r c,
    (∀ f ∈ files, r ≠ (FileSink.target s.directory f).place s.tree.working ∧
      r ≠ (FileSink.target s.directory f).staging.place s.tree.working ∧
      r ≠ (FileSink.target s.directory f).backup.place s.tree.working) →
    s.tree.find? r = some (.file c) → s'.tree.find? r = some (.file c)
  created : ∀ r c, s'.tree.find? r = some (.file c) →
    (∃ f ∈ files, r = (FileSink.target s.directory f).place s.tree.working) ∨
      s.tree.find? r = some (.file c)
  written : s'.written = files.map (FileSink.target s.directory)

/-- A call that succeeds takes a run to its end and removes the backups. -/
theorem of_call_eq_ok {s : FileSink} (ht : s.tree.WellFormed) (hs : Separate s.directory files)
    (h : (s.call faults files).2.outcome = .ok ()) :
    ∃ t₁ t₂ moved, Prepared s.directory files s.tree t₁ ∧
      Moves faults s.tree.working 0 (files.map (target s.directory)) t₁ t₂ moved none ∧
      discard (moved.filterMap Moved.backup) t₂ = ((s.call faults files).1.tree, .ok ()) ∧
      (s.call faults files).1.written = files.map (target s.directory) := by
  have hw := call_of_ok h
  rw [call_tree]
  rcases hst : stageAll faults s.directory files 0 s.tree with ⟨t₁, staged, r⟩
  match r with
  | .error (.defect d) =>
    rw [writeAll_defect hst] at hw
    cases hw
  | .error (.refused path) =>
    rw [writeAll_refused hst] at hw
    obtain ⟨e, he⟩ := discardAndFail_error (staged.map Staged.temporary) t₁ [] (.staging path)
    rw [he] at hw
    cases hw
  | .ok () =>
    obtain ⟨hstaged, hprepared⟩ := prepared_of_stageAll ht hs hst
    rcases hmv : moveAll faults staged 0 t₁ with ⟨t₂, moved, stop⟩
    have hm := hprepared.moves hstaged hmv
    cases stop with
    | some p =>
      obtain ⟨notes, hstop⟩ := writeAll_stopped hst hmv
      rw [hstop] at hw
      obtain ⟨e, he⟩ := discardAndFail_error (staged.map Staged.temporary)
        (moved.foldr undo t₂) notes (.moving p.text)
      rw [he] at hw
      cases hw
    | none =>
      rcases hd : discard (moved.filterMap Moved.backup) t₂ with ⟨t', e | _⟩
      · rw [writeAll_kept hst hmv hd] at hw
        cases hw
      · obtain ⟨htree, hout⟩ := writeAll_done hst hmv hd
        rw [hout] at hw
        refine ⟨t₁, t₂, moved, hprepared, hm, by rw [htree, hd], ?_⟩
        rw [← Except.ok.inj hw, hstaged, List.map_map, List.map_map]
        rfl

/-- What is left once every staged file is moved and the backups are removed. -/
theorem Moves.delivered {s s' : FileSink} (hs : Separate s.directory files)
    (hprepared : Prepared s.directory files s.tree t₁)
    (hm : Moves faults s.tree.working 0 (files.map (FileSink.target s.directory)) t₁ t₂ moved none)
    (hd : discard (moved.filterMap Moved.backup) t₂ = (s'.tree, .ok ()))
    (hwritten : s'.written = files.map (FileSink.target s.directory)) :
    Delivered s s' files := by
  obtain ⟨hdir, hgone, hkept⟩ := hm.discarded hd
  have hmem : ∀ f ∈ files, target s.directory f ∈ files.map (target s.directory) :=
    fun f hf => List.mem_map_of_mem hf
  have hlift : ∀ {P : Path → Prop}, (∀ f ∈ files, P (target s.directory f)) →
      ∀ p ∈ files.map (target s.directory), P p := by
    intro P hP p hp
    obtain ⟨f, hf, rfl⟩ := List.mem_map.mp hp
    exact hP f hf
  -- The backups are removed last, so each place is looked up before that and after the run.
  refine ⟨fun f hf => ?_, fun f hf => ?_, fun f hf hstood => ?_, fun r c hr hc => ?_,
    fun r c hc => ?_, hwritten⟩
  · rw [hkept _ (hlift fun g hg _ => hs.place_ne_backup hf hg _), (hm.placed (hmem f hf)).1]
    exact hprepared.written f hf
  · rw [hkept _ (hlift fun g hg _ => (hs.backup_ne_staging hg hf _).symm)]
    exact (hm.placed (hmem f hf)).2
  · exact hgone _ (hmem f hf) (mt (hprepared.none_iff hs hf).mp hstood)
  · rw [hkept r (hlift fun g hg _ => (hr g hg).2.2), hm.unchanged hdir
      (hlift fun g hg => ⟨(hr g hg).1, (hr g hg).2.1⟩) fun m hm' b hb => ?_]
    · exact (hprepared.file_iff r c fun g hg => (hr g hg).2.1).mpr hc
    · obtain ⟨p, hp, -, rfl⟩ := hm.mem_backups.mp (List.mem_filterMap.mpr ⟨m, hm', hb⟩)
      exact hlift (P := fun p => r ≠ p.backup.place s.tree.working) (fun g hg => (hr g hg).2.2) p hp
  · -- What is new is no backup, for those are gone, and no staged file, for those are moved.
    have hnotbackup : ∀ p ∈ files.map (target s.directory),
        t₁.find? (p.place s.tree.working) ≠ none → r ≠ p.backup.place s.tree.working := by
      rintro p hp hstood rfl
      rw [hgone p hp hstood] at hc
      cases hc
    rw [hkept r hnotbackup] at hc
    by_cases htarget : ∃ f ∈ files, r = (target s.directory f).place s.tree.working
    · exact .inl htarget
    · right
      have hne : ∀ f ∈ files, r ≠ (target s.directory f).place s.tree.working ∧
          r ≠ (target s.directory f).staging.place s.tree.working := by
        refine fun f hf => ⟨fun he => htarget ⟨f, hf, he⟩, ?_⟩
        rintro rfl
        rw [(hm.placed (hmem f hf)).2] at hc
        cases hc
      rw [hm.unchanged hdir (hlift hne) fun m hm' b hb => ?_] at hc
      · exact (hprepared.file_iff r c fun f hf => (hne f hf).2).mp hc
      · obtain ⟨p, hp, hstood, rfl⟩ := hm.mem_backups.mp (List.mem_filterMap.mpr ⟨m, hm', hb⟩)
        exact hnotbackup p hp hstood

/-- A call that succeeds has written every file and changed nothing else, whatever stood
in the tree and however the device behaved. -/
theorem delivered_of_ok {s : FileSink} (ht : s.tree.WellFormed) (hs : Separate s.directory files)
    (h : (s.call faults files).2.outcome = .ok ()) :
    Delivered s (s.call faults files).1 files := by
  obtain ⟨t₁, t₂, moved, hprepared, hm, hd, hwritten⟩ := of_call_eq_ok ht hs h
  exact hm.delivered hs hprepared hd hwritten

/-- A directory `out` with what stands in it, to be written to. -/
def outputWith (entries : List (Place × Entry)) : FileSink where
  directory := ⟨"", ["out"]⟩
  tree := ⟨(["out"], .directory) :: entries, []⟩
  written := []

/-- One file is replaced and one is new. -/
theorem delivered_replacing :
    Delivered (outputWith [(["out", "a.ts"], .file "old".toUTF8)])
      ((outputWith [(["out", "a.ts"], .file "old".toUTF8)]).call Faults.none
        [⟨"a.ts", "new"⟩, ⟨"src/b.ts", "more"⟩]).1
      [⟨"a.ts", "new"⟩, ⟨"src/b.ts", "more"⟩] :=
  delivered_of_ok (by decide +kernel) (by decide +kernel) (by decide +kernel)

/-! ### A call that fails -/

/-- If what was moved aside were files and no file stood at the backups, the moves can be
undone. -/
theorem Prepared.clean (h : Prepared directory files t t₁) (hs : Separate directory files)
    (hm : Moves faults t.working i (files.map (target directory)) t₁ t₂ moved stop)
    (hv : ∀ m ∈ moved, ∀ b, m.backup = some b →
      t.find? (m.target.place t.working) ≠ some .directory ∧
        ∀ c, t.find? (b.place t.working) ≠ some (.file c)) : Clean t.working t₁ moved := by
  intro m hmem b hb
  obtain ⟨hp, hkept⟩ := hm.kept hmem
  obtain ⟨rfl, -, e, he, -, hcompat⟩ := hkept.of_eq_some hb
  obtain ⟨f, hf, hft⟩ := List.mem_map.mp hp
  obtain ⟨hdir, hfile⟩ := hv m hmem _ hb
  rw [← hft] at he hdir hfile hcompat ⊢
  have hdir₁ := mt (h.directory_iff f hf).mp hdir
  cases e with
  | directory => exact absurd he hdir₁
  | file c =>
    refine ⟨⟨c, he⟩, ?_⟩
    cases hb : t₁.find? ((target directory f).backup.place t.working) with
    | none => rfl
    | some e' =>
      cases e' with
      | directory => exact absurd ((hcompat _ hb).mp rfl) (by simp)
      | file c' =>
        have hiff := h.file_iff _ c' fun g hg => hs.backup_ne_staging hf hg t.working
        exact absurd (hiff.mp hb) (hfile c')

/-- If the tree is restored but for what is staged, removing that leaves the files as they
were. -/
theorem Prepared.restored (h : Prepared directory files t t₁)
    (hr : Restored t.working (files.map (target directory)) t₁ t₂)
    (hv : ∀ f ∈ files, ∀ c,
      t.find? ((target directory f).staging.place t.working) ≠ some (.file c))
    (notes : List Note) (reason : WriteError) :
    ∃ t', discardAndFail ((files.map (target directory)).map Path.staging) t₂ notes reason
        = (t', ⟨.error (.write reason), notes⟩) ∧ SameFiles t t' := by
  obtain ⟨t', hd, hgone, hkept⟩ := discard_staging h.ready hr
  refine ⟨t', discardAndFail_of_ok hd, h.sameFiles hv (fun f hf => ?_) (fun r hr => ?_)⟩
  · exact hgone _ (List.mem_map_of_mem hf)
  · refine hkept r fun p hp => ?_
    obtain ⟨f, hf, rfl⟩ := List.mem_map.mp hp
    exact hr f hf

/-- The backups of files can be removed. -/
theorem Moves.discard_backups (h : Moves faults w i ps t t₂ moved stop)
    (hclean : Clean w t moved) :
    ∃ t', discard (moved.filterMap Moved.backup) t₂ = (t', .ok ()) := by
  -- What stands at a backup is the file that stood at the target.
  have hfile : ∀ b ∈ moved.filterMap Moved.backup,
      b.Normal ∧ ∃ c, t₂.find? (b.place w) = some (.file c) := by
    intro b hb
    obtain ⟨m, hm, hb⟩ := List.mem_filterMap.mp hb
    obtain ⟨⟨c, hc⟩, -⟩ := hclean m hm b hb
    obtain ⟨hp, hkept⟩ := h.kept hm
    obtain ⟨rfl, -, e, he, hk, -⟩ := hkept.of_eq_some hb
    rw [hc] at he
    cases he
    exact ⟨(h.ready.normal _ hp).backup, c, hk⟩
  have hworking := h.working
  refine discard_eq_ok h.rooted h.removable_backups (fun b hb => ?_) (fun b hb => ?_)
  · obtain ⟨hn, c, hc⟩ := hfile b hb
    rw [← hworking] at hc
    exact FileTree.above_of_find? h.rooted hn hc
  · obtain ⟨hn, c, hc⟩ := hfile b hb
    rw [hworking, hc]
    simp

/-- What is removed when a call fails are the staging names of its targets. -/
theorem map_temporary (hstaged : staged = ps.map stage) :
    staged.map Staged.temporary = ps.map Path.staging := by
  rw [hstaged, List.map_map]
  rfl

/-- The condition on what was staged, said of the files. -/
theorem no_file_staged_iff (hstaged : staged = (files.map (target directory)).map stage) :
    (∀ s ∈ staged, ∀ c, t.find? (s.temporary.place w) ≠ some (.file c)) ↔
      ∀ f ∈ files, ∀ c, t.find? ((target directory f).staging.place w) ≠ some (.file c) := by
  rw [hstaged, List.map_map, List.forall_mem_map]
  rfl

/-- Nothing stands where files are staged and kept, and no directory at a target. -/
structure Vacant (directory : Path) (files : List GeneratedFile) (t : FileTree) : Prop where
  staging : ∀ f ∈ files, t.find? ((target directory f).staging.place t.working) = none
  backup : ∀ f ∈ files, t.find? ((target directory f).backup.place t.working) = none
  target : ∀ f ∈ files, t.find? ((target directory f).place t.working) ≠ some .directory

instance (directory : Path) (files : List GeneratedFile) (t : FileTree) :
    Decidable (Vacant directory files t) :=
  decidable_of_iff
    ((∀ f ∈ files, t.find? ((target directory f).staging.place t.working) = none) ∧
      (∀ f ∈ files, t.find? ((target directory f).backup.place t.working) = none) ∧
      ∀ f ∈ files, t.find? ((target directory f).place t.working) ≠ some .directory)
    ⟨fun ⟨h₁, h₂, h₃⟩ => ⟨h₁, h₂, h₃⟩, fun h => ⟨h.staging, h.backup, h.target⟩⟩

/-- The device refuses a rename that a call needs. -/
def Struck (faults : Faults) (directory : Path) (files : List GeneratedFile) (t : FileTree) :
    Prop :=
  ∃ k f, files[k]? = some f ∧ (faults.into k = true ∨
    faults.aside k = true ∧ t.find? ((target directory f).place t.working) ≠ none)

/-- A call whose files are staged, into a tree where nothing is in its way. If the device
refuses a rename, the call fails; and if it fails, it names the target and leaves the files
as they were. -/
theorem restored_of_error {s : FileSink} (ht : s.tree.WellFormed) (hs : Separate s.directory files)
    (hv : Vacant s.directory files s.tree)
    (hstaged : (stageAll faults s.directory files 0 s.tree).2.2 = .ok ()) :
    (Struck faults s.directory files s.tree →
        ∃ e, (s.call faults files).2.outcome = .error e) ∧
      ∀ e, (s.call faults files).2.outcome = .error e →
        (∃ p, e = .write (.moving p)) ∧ SameFiles s.tree (s.call faults files).1.tree := by
  rcases hst : stageAll faults s.directory files 0 s.tree with ⟨t₁, staged, r⟩
  rw [hst] at hstaged
  cases hstaged
  obtain ⟨hstaged, hprepared⟩ := prepared_of_stageAll ht hs hst
  rcases hmv : moveAll faults staged 0 t₁ with ⟨t₂, moved, stop⟩
  have hm := hprepared.moves hstaged hmv
  have hclean : Clean s.tree.working t₁ moved := by
    refine hprepared.clean hs hm fun m hmem b hb => ?_
    obtain ⟨hp, hkept⟩ := hm.kept hmem
    obtain ⟨rfl, -⟩ := hkept.of_eq_some hb
    obtain ⟨f, hf, hft⟩ := List.mem_map.mp hp
    rw [← hft]
    exact ⟨hv.target f hf, fun c => by simp [hv.backup f hf]⟩
  simp only [call_error_iff, call_tree]
  cases stop with
  | some p =>
    -- A rename was refused, for whatever reason; the moves are undone.
    obtain ⟨notes, hstop⟩ := writeAll_stopped hst hmv
    obtain ⟨t', hfail, hsame⟩ := hprepared.restored (hm.undone hclean)
      (fun f hf c => by simp [hv.staging f hf]) notes (.moving p.text)
    rw [hstop, map_temporary hstaged, hfail]
    refine ⟨fun _ => ⟨_, rfl⟩, fun e he => ?_⟩
    cases he
    exact ⟨⟨p.text, rfl⟩, hsame⟩
  | none =>
    -- No rename was refused, so no fault was in the way and the call succeeds.
    obtain ⟨t', hd⟩ := hm.discard_backups hclean
    obtain ⟨-, hout⟩ := writeAll_done hst hmv hd
    rw [hout]
    refine ⟨?_, fun e he => by cases he⟩
    rintro ⟨k, f, hk, hfault⟩
    have hf := List.mem_of_getElem? hk
    have hkp : (files.map (target s.directory))[k]? = some (target s.directory f) := by
      rw [List.getElem?_map, hk]
      rfl
    obtain ⟨hinto, haside⟩ := hm.no_fault hkp
    rw [Nat.zero_add] at hinto haside
    rcases hfault with hfault | ⟨hfault, hstood⟩
    · rw [hinto] at hfault
      cases hfault
    · exact absurd ((hprepared.none_iff hs hf).mp (haside hfault)) hstood

/-- The device refuses to move the second file into place, the first one being moved. -/
theorem restored_second_refused :
    ∃ p, ((outputWith [(["out", "a.ts"], .file "old".toUTF8)]).call
        ⟨fun _ => none, fun _ => false, fun i => i = 1⟩
        [⟨"a.ts", "new"⟩, ⟨"b.ts", "more"⟩]).2.outcome = .error (.write (.moving p)) ∧
      SameFiles (outputWith [(["out", "a.ts"], .file "old".toUTF8)]).tree
        ((outputWith [(["out", "a.ts"], .file "old".toUTF8)]).call
          ⟨fun _ => none, fun _ => false, fun i => i = 1⟩
          [⟨"a.ts", "new"⟩, ⟨"b.ts", "more"⟩]).1.tree := by
  obtain ⟨hfails, hrestored⟩ := @restored_of_error
    ⟨fun _ => none, fun _ => false, fun i => i = 1⟩ [⟨"a.ts", "new"⟩, ⟨"b.ts", "more"⟩]
    (outputWith [(["out", "a.ts"], .file "old".toUTF8)])
    (by decide +kernel) (by decide +kernel) (by decide +kernel) rfl
  obtain ⟨e, he⟩ := hfails ⟨1, ⟨"b.ts", "more"⟩, rfl, .inl rfl⟩
  obtain ⟨⟨p, rfl⟩, hsame⟩ := hrestored e he
  exact ⟨p, he, hsame⟩

/-! ### A device that does not fail -/

/-- A device that does not fail tears no write. -/
theorem tornAt_none (directory : Path) (files : List GeneratedFile) (i : Nat) (w : Place)
    (n : Nat) : tornAt Faults.none directory files i w n = [] := by
  unfold tornAt
  split <;> rfl

/-- What a call has moved when it stops, if the device does not fail. -/
def displaced (directory : Path) (files : List GeneratedFile) (t : FileTree) : List Moved :=
  match stageAll Faults.none directory files 0 t with
  | (t₁, staged, .ok ()) => (moveAll Faults.none staged 0 t₁).2.1
  | _ => []

/-- Nothing that a call displaces before it stops is lost for good, and no path holds a
character that no file system takes. -/
structure Recoverable (directory : Path) (files : List GeneratedFile) (t : FileTree) : Prop where
  no_defect : ∀ d, (stageAll Faults.none directory files 0 t).2.2 ≠ .error (.defect d)
  /-- No file stood where one was staged. -/
  staging : ∀ s ∈ (stageAll Faults.none directory files 0 t).2.1, ∀ c,
    t.find? (s.temporary.place t.working) ≠ some (.file c)
  /-- What was moved aside was no directory, and no file stood at its backup. -/
  moved : ∀ m ∈ displaced directory files t, ∀ b, m.backup = some b →
    t.find? (m.target.place t.working) ≠ some .directory ∧
      ∀ c, t.find? (b.place t.working) ≠ some (.file c)

/-- What is staged and removed leaves no file at a staging name. -/
theorem Prepared.staging_of_sameFiles (h : Prepared directory files t t₁) (hr : t₂.Rooted)
    (hw : t₂.working = t.working)
    (hd : discard ((files.map (target directory)).map Path.staging) t₂ = (t', .ok ()))
    (hsame : SameFiles t t') : ∀ f ∈ files, ∀ c,
      t.find? ((target directory f).staging.place t.working) ≠ some (.file c) := by
  intro f hf c hc
  obtain ⟨hgone, -⟩ := of_discard_eq_ok hr h.ready.removable_staging hd
  have hmem : (target directory f).staging ∈ (files.map (target directory)).map Path.staging :=
    List.mem_map_of_mem (List.mem_map_of_mem hf)
  have hnone := (hgone _ hmem).2
  rw [hw, (hsame _ c).mpr hc] at hnone
  cases hnone

/-- Into a tree where nothing is in the way, what a call displaces can be recovered. -/
theorem recoverable_of_vacant (ht : t.WellFormed) (hs : Separate directory files)
    (hv : Vacant directory files t)
    (hnul : ∀ f ∈ files, ∀ n ∈ (target directory f).names, '\x00' ∉ n.toList) :
    Recoverable directory files t := by
  rcases hst : stageAll Faults.none directory files 0 t with ⟨t₁, staged, r⟩
  refine ⟨stageAll_ne_defect hs.normal hnul, fun s hmem c => ?_, fun m hmem b hb => ?_⟩
  · obtain ⟨hstaging, -⟩ := staging_stageAll ht hs.distinct hst
    rw [hst, hstaging.staged_eq] at hmem
    obtain ⟨f, hf, rfl⟩ := List.mem_map.mp hmem
    show t.find? ((target directory f).staging.place t.working) ≠ _
    simp [hv.staging f (List.mem_of_mem_take hf)]
  · unfold displaced at hmem
    rw [hst] at hmem
    match r with
    | .error _ => cases hmem
    | .ok () =>
      obtain ⟨hstaged, hprepared⟩ := prepared_of_stageAll ht hs hst
      have hm : Moves Faults.none t.working 0 _ t₁ _ (moveAll Faults.none staged 0 t₁).2.1 _ :=
        hprepared.moves hstaged rfl
      obtain ⟨hp, hkept⟩ := hm.kept hmem
      obtain ⟨rfl, -⟩ := hkept.of_eq_some hb
      obtain ⟨f, hf, hft⟩ := List.mem_map.mp hp
      rw [← hft]
      exact ⟨hv.target f hf, fun c => by simp [hv.backup f hf]⟩

/-- Whatever was displaced for good is a difference to the files before. -/
theorem Prepared.moved_of_sameFiles (h : Prepared directory files t t₁)
    (hs : Separate directory files)
    (hm : Moves Faults.none t.working i (files.map (target directory)) t₁ t₂ moved stop)
    (hd : discard ((files.map (target directory)).map Path.staging) (moved.foldr undo t₂)
      = (t', .ok ()))
    (hsame : SameFiles t t') :
    ∀ m ∈ moved, ∀ b, m.backup = some b →
      t.find? (m.target.place t.working) ≠ some .directory ∧
        ∀ c, t.find? (b.place t.working) ≠ some (.file c) := by
  obtain ⟨hrooted, hworking⟩ := hm.undone_rooted
  obtain ⟨-, hkept⟩ := of_discard_eq_ok hrooted h.ready.removable_staging hd
  have hfind : ∀ {r : Place}, (∀ f ∈ files, r ≠ (target directory f).staging.place t.working) →
      t'.find? r = (moved.foldr undo t₂).find? r := by
    intro r hr
    refine hkept r fun p hp => ?_
    obtain ⟨q, hq, rfl⟩ := List.mem_map.mp hp
    obtain ⟨f, hf, rfl⟩ := List.mem_map.mp hq
    rw [hworking]
    exact hr f hf
  intro m hmem b hb
  obtain ⟨hp, hkept⟩ := hm.kept hmem
  obtain ⟨rfl, -, e, he, -⟩ := hkept.of_eq_some hb
  obtain ⟨hdir, hfile⟩ := hm.broken (fun _ => rfl) hmem (by simp [hb])
  obtain ⟨f, hf, hft⟩ := List.mem_map.mp hp
  rw [← hft] at he hdir hfile ⊢
  have htarget := hfind fun g hg => hs.place_ne_staging hf hg t.working
  have hbackup := hfind fun g hg => hs.backup_ne_staging hf hg t.working
  -- A new file would stand where the directory was.
  have hnodir : t.find? ((target directory f).place t.working) ≠ some .directory := by
    intro hd
    obtain ⟨c, hc⟩ := hdir ((h.directory_iff f hf).mpr hd)
    have hc' := (hsame _ c).mp (htarget.trans hc)
    rw [hd] at hc'
    cases hc'
  refine ⟨hnodir, fun c hc => ?_⟩
  -- So what was moved aside was a file, and it has taken the place of the one at the backup.
  cases e with
  | directory => exact hnodir ((h.directory_iff f hf).mp he)
  | file c' =>
    have hc' := (hsame _ c).mpr hc
    rw [hbackup, hfile c' he] at hc'
    cases hc'

section Recoverable

variable {e : Failure}

/-- Staging is refused: only what was staged has been displaced. -/
theorem recoverable_iff_of_refused {path : String} (ht : t.WellFormed)
    (hs : Separate directory files)
    (hst : stageAll Faults.none directory files 0 t = (t₁, staged, .error (.refused path)))
    (he : (writeAll Faults.none directory files t).2.outcome = .error e) :
    ((∃ reason, e = .write reason) ∧ SameFiles t (writeAll Faults.none directory files t).1) ↔
      Recoverable directory files t := by
  obtain ⟨hstaging, -⟩ := staging_stageAll ht hs.distinct hst
  have hprepared := hstaging.prepared hs (tornAt_none _ _ _ _ _)
  have hready := hprepared.ready
  have hstaged : staged = ((files.take staged.length).map (target directory)).map stage := by
    rw [List.map_map]
    exact hstaging.staged_eq
  rw [writeAll_refused hst, map_temporary hstaged] at he ⊢
  constructor
  · rintro ⟨⟨reason, rfl⟩, hsame⟩
    refine ⟨fun d => by simp [hst], ?_, by simp [displaced, hst]⟩
    have hd := of_discardAndFail he
    have hnone := hprepared.staging_of_sameFiles hready.rooted hready.working hd hsame
    rw [hst]
    exact (no_file_staged_iff hstaged).mpr hnone
  · intro hr
    have hv := hr.staging
    rw [hst] at hv
    obtain ⟨t', hfail, hsame⟩ := hprepared.restored hready.restored
      ((no_file_staged_iff hstaged).mp hv) [] (.staging path)
    rw [hfail] at he ⊢
    cases he
    exact ⟨⟨_, rfl⟩, hsame⟩

/-- A rename is refused: what was staged and what was moved aside has been displaced. -/
theorem recoverable_iff_of_stopped {p : Path} (ht : t.WellFormed) (hs : Separate directory files)
    (hst : stageAll Faults.none directory files 0 t = (t₁, staged, .ok ()))
    (hmv : moveAll Faults.none staged 0 t₁ = (t₂, moved, some p))
    (he : (writeAll Faults.none directory files t).2.outcome = .error e) :
    ((∃ reason, e = .write reason) ∧ SameFiles t (writeAll Faults.none directory files t).1) ↔
      Recoverable directory files t := by
  obtain ⟨hstaged, hprepared⟩ := prepared_of_stageAll ht hs hst
  have hm := hprepared.moves hstaged hmv
  have hdisplaced : displaced directory files t = moved := by simp [displaced, hst, hmv]
  obtain ⟨notes, hstop⟩ := writeAll_stopped hst hmv
  rw [hstop, map_temporary hstaged] at he ⊢
  constructor
  · rintro ⟨⟨reason, rfl⟩, hsame⟩
    have hd := of_discardAndFail he
    obtain ⟨hrooted, hworking⟩ := hm.undone_rooted
    have hnone := hprepared.staging_of_sameFiles hrooted hworking hd hsame
    have hmoved := hprepared.moved_of_sameFiles hs hm hd hsame
    refine ⟨fun d => by simp [hst], ?_, by rwa [hdisplaced]⟩
    rw [hst]
    exact (no_file_staged_iff hstaged).mpr hnone
  · intro hr
    have hv := hr.staging
    have hmoved := hr.moved
    rw [hst] at hv
    rw [hdisplaced] at hmoved
    obtain ⟨t', hfail, hsame⟩ := hprepared.restored (hm.undone (hprepared.clean hs hm hmoved))
      ((no_file_staged_iff hstaged).mp hv) notes (.moving p.text)
    rw [hfail] at he ⊢
    cases he
    exact ⟨⟨_, rfl⟩, hsame⟩

/-- Every rename went through, so a backup is a directory that could not be removed. -/
theorem recoverable_iff_of_moved (ht : t.WellFormed) (hs : Separate directory files)
    (hst : stageAll Faults.none directory files 0 t = (t₁, staged, .ok ()))
    (hmv : moveAll Faults.none staged 0 t₁ = (t₂, moved, none))
    (he : (writeAll Faults.none directory files t).2.outcome = .error e) :
    ((∃ reason, e = .write reason) ∧ SameFiles t (writeAll Faults.none directory files t).1) ↔
      Recoverable directory files t := by
  obtain ⟨hstaged, hprepared⟩ := prepared_of_stageAll ht hs hst
  have hm := hprepared.moves hstaged hmv
  have hdisplaced : displaced directory files t = moved := by simp [displaced, hst, hmv]
  rcases hd : discard (moved.filterMap Moved.backup) t₂ with ⟨t', e' | _⟩
  · rw [writeAll_kept hst hmv hd] at he
    cases he
    constructor
    · rintro ⟨⟨reason, hreason⟩, -⟩
      cases hreason
    · intro hr
      have hmoved := hr.moved
      rw [hdisplaced] at hmoved
      obtain ⟨t'', hok⟩ := hm.discard_backups (hprepared.clean hs hm hmoved)
      rw [hd] at hok
      cases hok
  · rw [(writeAll_done hst hmv hd).2] at he
    cases he

end Recoverable

/-- A call that fails though the device does not gives a reason for it and leaves the files as they
were, exactly if what it has displaced can be recovered. The contents are texts that have an
encoding in UTF-8, as every text here does; a text with a lone surrogate, which has none, is outside
the type, so what a call does with one is not said. -/
theorem restored_iff_recoverable {s : FileSink} {e : Failure} (ht : s.tree.WellFormed)
    (hs : Separate s.directory files) (he : (s.call Faults.none files).2.outcome = .error e) :
    ((∃ reason, e = .write reason) ∧ SameFiles s.tree (s.call Faults.none files).1.tree) ↔
      Recoverable s.directory files s.tree := by
  rw [call_error_iff] at he
  rw [call_tree]
  rcases hst : stageAll Faults.none s.directory files 0 s.tree with ⟨t₁, staged, r⟩
  match r with
  | .error (.defect d) =>
    rw [writeAll_defect hst] at he
    cases he
    constructor
    · rintro ⟨⟨reason, hreason⟩, -⟩
      cases hreason
    · intro hr
      have hno := hr.no_defect d
      rw [hst] at hno
      exact absurd rfl hno
  | .error (.refused path) => exact recoverable_iff_of_refused ht hs hst he
  | .ok () =>
    rcases hmv : moveAll Faults.none staged 0 t₁ with ⟨t₂, moved, stop⟩
    cases stop with
    | some p => exact recoverable_iff_of_stopped ht hs hst hmv he
    | none => exact recoverable_iff_of_moved ht hs hst hmv he

/-- A file stands where a directory is needed, after a first file was staged. -/
theorem restored_blocked :
    SameFiles (outputWith [(["out", "blocked"], .file "".toUTF8)]).tree
      ((outputWith [(["out", "blocked"], .file "".toUTF8)]).call Faults.none
        [⟨"a.ts", "1"⟩, ⟨"blocked/b.ts", "2"⟩]).1.tree := by
  have he : ((outputWith [(["out", "blocked"], .file "".toUTF8)]).call Faults.none
      [⟨"a.ts", "1"⟩, ⟨"blocked/b.ts", "2"⟩]).2.outcome
        = .error (.write (.staging "blocked/b.ts")) := by
    decide +kernel
  have hiff := restored_iff_recoverable (by decide +kernel) (by decide +kernel) he
  have hstage : (stageAll Faults.none ⟨"", ["out"]⟩ [⟨"a.ts", "1"⟩, ⟨"blocked/b.ts", "2"⟩] 0
      (outputWith [(["out", "blocked"], .file "".toUTF8)]).tree).2
        = ([stage ⟨"", ["out", "a.ts"]⟩], .error (.refused "blocked/b.ts")) := rfl
  refine (hiff.mpr ⟨fun d => ?_, fun s hs c => ?_, fun m hm => ?_⟩).2
  · rw [show (outputWith _).directory = ⟨"", ["out"]⟩ from rfl, hstage]
    simp
  · rw [show (outputWith _).directory = ⟨"", ["out"]⟩ from rfl, hstage] at hs
    cases List.mem_singleton.mp hs
    have hnone : (outputWith [(["out", "blocked"], .file "".toUTF8)]).tree.find?
        ((stage ⟨"", ["out", "a.ts"]⟩).temporary.place []) = none := by
      decide +kernel
    exact fun hc => nomatch hnone.symm.trans hc
  · cases hm

/-- A directory at a target is moved aside, and the failure to remove it is no reported one.
The new file stays where the directory was. -/
theorem directory_at_target_not_restored :
    (outputWith [(["out", "a.ts"], .directory)]).tree.WellFormed ∧
      Separate (outputWith [(["out", "a.ts"], .directory)]).directory [⟨"a.ts", "new"⟩] ∧
      ((outputWith [(["out", "a.ts"], .directory)]).call Faults.none
        [⟨"a.ts", "new"⟩]).2.outcome = .error (.defect (.file .isADirectory)) ∧
      (outputWith [(["out", "a.ts"], .directory)]).tree.find? ["out", "a.ts"]
        = some .directory ∧
      ((outputWith [(["out", "a.ts"], .directory)]).call Faults.none
        [⟨"a.ts", "new"⟩]).1.tree.find? ["out", "a.ts"] = some (.file "new".toUTF8) :=
  ⟨by decide +kernel, by decide +kernel, by decide +kernel, rfl, rfl⟩

end TypedClient.FileSink
