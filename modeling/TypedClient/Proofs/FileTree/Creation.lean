import TypedClient.Proofs.FileTree.Call

/-!
# `TypedClient.Proofs.FileTree.Creation`: files where there were none

A call of the sink that finds nothing in its way succeeds, if the device does not fail: the
directories above the targets can be made because no file stands on the way to one, the files
can be staged because no directory stands where they are staged, and they can be moved because
nothing stands at a target. None of this is spoiled by the files before, unless one is staged on
the way to another target.

* `FileTree.makeDirectories_ok`: directories can be made where no file is on the way.
* `FileSink.Stageable`, `FileSink.stageAll_ok`: files are staged where nothing is in the way.
* `FileSink.Room`: nothing stands at a target either.
* `FileSink.call_ok_of_room`: such a call succeeds.
-/

set_option autoImplicit false

namespace TypedClient

namespace Path

/-- Joining fewer names makes no longer a text. -/
theorem utf8ByteSize_intercalate_dropLast_le (sep : String) (names : List String) :
    (sep.intercalate names.dropLast).utf8ByteSize ≤ (sep.intercalate names).utf8ByteSize := by
  rcases names.eq_nil_or_concat with rfl | ⟨init, last, rfl⟩
  · exact Nat.le_refl _
  · rw [List.concat_eq_append, List.dropLast_concat]
    by_cases hnil : init = []
    · simp [hnil]
    · rw [String.intercalate_append_of_ne_nil hnil (by simp), String.utf8ByteSize_append,
        String.utf8ByteSize_append]
      omega

/-- If a file system takes a path, it takes the directory of it. -/
theorem Fits.parent {p : Path} (hf : p.Fits) : p.parent.Fits where
  no_nul n hn := hf.no_nul n (List.dropLast_subset _ hn)
  name_le n hn := hf.name_le n (List.dropLast_subset _ hn)
  text_le := by
    have hle := utf8ByteSize_intercalate_dropLast_le "/" p.names
    have htext := hf.text_le
    have hdot : ".".utf8ByteSize = 1 := by decide
    unfold text at htext ⊢
    dsimp only [Path.parent] at htext ⊢
    split
    · decide
    · split at htext
      · rename_i hempty
        obtain ⟨hroot, hnames⟩ := String.append_eq_empty_iff.mp hempty
        rw [hnames] at hle
        rw [hroot, String.empty_append]
        exact Nat.le_trans hle (Nat.zero_le _)
      · rw [String.utf8ByteSize_append] at htext ⊢
        omega

end Path

namespace FileTree

variable {t t' : FileTree} {p : Path} {q r : Place}

/-- No file stands at a place or on the way to it. -/
def Open (t : FileTree) (q : Place) : Prop := ∀ r, r <+: q → ∀ c, t.find? r ≠ some (.file c)

/-- On the way to an open place every place is open. -/
theorem Open.of_prefix (h : t.Open q) (hr : r <+: q) : t.Open r := fun s hs => h s (hs.trans hr)

/-- What stands at an open place is a directory. -/
theorem Open.eq_directory (h : t.Open q) (hq : t.find? q ≠ none) :
    t.find? q = some .directory := by
  cases hc : t.find? q with
  | none => exact absurd hc hq
  | some e =>
    cases e with
    | directory => rfl
    | file c => exact absurd hc (h q List.prefix_rfl c)

/-- The first directory that is missing is what is missing. -/
theorem foldlM_enter_missing {names : List String} (hdots : ∀ n ∈ names, n ≠ "..")
    (hsize : ∀ n ∈ names, n.utf8ByteSize ≤ maxNameLength) (hne : names ≠ []) {base : Place}
    (hopen : t.Open (base ++ names.dropLast)) (hnone : t.find? (base ++ names.dropLast) = none) :
    names.foldlM t.enter base = .error .missing := by
  induction names generalizing base with
  | nil => exact absurd rfl hne
  | cons n rest ih =>
    rw [List.foldlM_cons]
    cases hbase : t.find? base with
    | none => simp only [enter, hbase]; rfl
    | some e =>
      have hrest : rest ≠ [] := by
        rintro rfl
        simp [hbase] at hnone
      have hassoc : base ++ (n :: rest).dropLast = base ++ [n] ++ rest.dropLast := by
        rw [List.dropLast_cons_of_ne_nil hrest, List.append_assoc, List.singleton_append]
      have hdir : t.find? base = some .directory :=
        (hopen.of_prefix (List.prefix_append _ _)).eq_directory (by simp [hbase])
      have hlen := hsize n List.mem_cons_self
      have hn : t.enter base n = .ok (base ++ [n]) := by
        simp only [enter, hdir]
        rw [if_neg (hdots n List.mem_cons_self), if_neg (by omega)]
      rw [hassoc] at hopen hnone
      rw [hn]
      exact ih (fun m hm => hdots m (List.mem_cons_of_mem _ hm))
        (fun m hm => hsize m (List.mem_cons_of_mem _ hm)) hrest hopen hnone

/-- A path whose directory is not there is refused because something is missing, and for no other
reason. -/
theorem locate_missing (hs : t.find? (p.start t.working) = some .directory)
    (hdots : ∀ n ∈ p.names, n ≠ "..") (hf : p.Fits) (hopen : t.Open (p.above t.working))
    (hnone : t.find? (p.above t.working) = none) : t.locate p = .error .missing := by
  have hne : p.names ≠ [] := by
    intro hnil
    rw [Path.above, hnil, List.dropLast_nil, List.append_nil, hs] at hnone
    cases hnone
  rw [locate_of_fits hf]
  exact foldlM_enter_missing hdots hf.name_le hne hopen hnone

/-! ### Making directories -/

/-- Where the directory above is, a directory can be made, or is there. -/
theorem settle_makeDirectory (ht : t.WellFormed) (hdots : ∀ n ∈ p.names, n ≠ "..") (hf : p.Fits)
    (hd : p.names ≠ [] → t.find? (p.above t.working) = some .directory)
    (hopen : t.Open (p.place t.working)) :
    t.makeDirectory p ≠ .error .missing ∧ (t.settle p (t.makeDirectory p)).2 = .ok () ∧
      (t.settle p (t.makeDirectory p)).1.find? (p.place t.working) = some .directory := by
  have hl := locate_of_above ht.rooted hdots hf hd
  cases hp : t.find? (p.place t.working) with
  | none =>
    have hmake : t.makeDirectory p = .ok (t.put (p.place t.working) .directory) := by
      simp [makeDirectory, hl, hp, bind, Except.bind, pure, Except.pure]
    have hnil : p.place t.working ≠ [] := by
      intro hnil
      rw [hnil, find?_nil] at hp
      cases hp
    rw [hmake]
    refine ⟨by simp, rfl, ?_⟩
    show (t.put (p.place t.working) .directory).find? _ = _
    rw [find?_put_of_ne_nil _ _ hnil, if_pos rfl]
  | some e =>
    have hdir := hopen.eq_directory (by simp [hp])
    have hmake : t.makeDirectory p = .error .present := by
      simp [makeDirectory, hl, hp, bind, Except.bind, throw, throwThe, MonadExceptOf.throw]
    have hthere : t.isDirectory p = true := by
      simp [isDirectory, stat, hl, hdir, bind, Except.bind, pure, Except.pure]
    rw [hmake]
    simp [settle, hthere, hdir]

/-- The directories on the way can be made in as many steps as the path has names, and the last one
is there afterwards. -/
theorem makeDirectoriesWithin_ok (n : Nat) (ht : t.WellFormed) (hn : p.names.length ≤ n)
    (hdots : ∀ n ∈ p.names, n ≠ "..") (hf : p.Fits) (hopen : t.Open (p.place t.working)) :
    (makeDirectoriesWithin n t p).2 = .ok () ∧
      (makeDirectoriesWithin n t p).1.find? (p.place t.working) = some .directory := by
  -- By induction on the number of steps up, the path getting shorter with it.
  induction n generalizing p with
  | zero =>
    have hnil : p.names = [] := List.length_eq_zero_iff.mp (Nat.le_zero.mp hn)
    exact (settle_makeDirectory ht hdots hf (fun h => absurd hnil h) hopen).2
  | succ n ih =>
    have habove := hopen.of_prefix (Path.above_prefix_place p _)
    unfold makeDirectoriesWithin
    by_cases hnone : t.find? (p.above t.working) = none
    · -- The directories above are made first, and then this one in the tree with them.
      have hmissing : t.makeDirectory p = .error .missing := by
        rw [makeDirectory, locate_missing (ht.start p) hdots hf habove hnone]
        rfl
      have hparent := @ih p.parent (by simp [Path.parent]; omega)
        (fun m hm => hdots m (List.dropLast_subset _ hm)) hf.parent habove
      have hgrown := grown_makeDirectoriesWithin (p := p.parent) n ht.rooted (ht.start p.parent)
        fun m hm => hdots m (List.dropLast_subset _ hm)
      rw [hmissing]
      rcases hm : makeDirectoriesWithin n t p.parent with ⟨t₁, r⟩
      rw [hm] at hparent hgrown
      obtain ⟨rfl, hdir⟩ := hparent
      have ht₁ : t₁.WellFormed :=
        ⟨hgrown.rooted, hgrown.working ▸ hgrown.keeps ht.working⟩
      have hopen₁ : t₁.Open (p.place t₁.working) := by
        intro r hr c hc
        rw [hgrown.working] at hr
        rcases hgrown.find? r with he | ⟨-, hd, -⟩
        · exact hopen r hr c (he ▸ hc)
        · rw [hd] at hc
          cases hc
      have hlast := settle_makeDirectory ht₁ hdots hf (fun _ => hgrown.working ▸ hdir) hopen₁
      rw [hgrown.working] at hlast
      exact hlast.2
    · have hlast := settle_makeDirectory ht hdots hf (fun _ => habove.eq_directory hnone) hopen
      split
      · rename_i hmissing
        exact absurd hmissing hlast.1
      · exact hlast.2

/-- Directories can be made where no file is on the way, and the last one is there afterwards. -/
theorem makeDirectories_ok (ht : t.WellFormed) (hdots : ∀ n ∈ p.names, n ≠ "..") (hf : p.Fits)
    (hopen : t.Open (p.place t.working)) :
    (t.makeDirectories p).2 = .ok () ∧
      (t.makeDirectories p).1.find? (p.place t.working) = some .directory :=
  makeDirectoriesWithin_ok _ ht (Nat.le_refl _) hdots hf hopen

/-- A file can be written where its directory is and no directory stands. -/
theorem write_eq_ok {c : ByteArray} (ht : t.Rooted) (hn : p.Normal) (hf : p.Fits)
    (hd : t.find? (p.above t.working) = some .directory)
    (hdir : t.find? (p.place t.working) ≠ some .directory) : ∃ t', t.write p c = .ok t' := by
  have hl := locate_eq ht hn hf hd
  refine ⟨t.put (p.place t.working) (.file c), ?_⟩
  cases hp : t.find? (p.place t.working) with
  | none => simp [write, hl, hp, bind, Except.bind, pure, Except.pure]
  | some e =>
    cases e with
    | directory => exact absurd hp hdir
    | file _ => simp [write, hl, hp, bind, Except.bind, pure, Except.pure]

end FileTree

namespace FileSink

open FileTree (Open)

variable {directory : Path} {files : List GeneratedFile} {t t₁ t₂ : FileTree} {p : Path}
variable {ps : List Path} {i : Nat} {w : Place}

/-! ### Staging -/

/-- One file can be staged if nothing is in its way and the device does not fail. -/
theorem stageAt_ok (ht : t.WellFormed) (hn : p.Normal) (hf : p.staging.Fits)
    (hopen : t.Open (p.above t.working))
    (hdir : t.find? (p.staging.place t.working) ≠ some .directory) (content : String) :
    ∃ t', stageAt t none (stage p) content = (t', .ok ()) := by
  have hdots : ∀ n ∈ p.parent.names, n ≠ ".." :=
    fun n hmem => hn.ne_parent n (List.dropLast_subset _ hmem)
  have hparent : p.parent.Fits := (Path.Fits.of_beside hn (by decide) hf).parent
  obtain ⟨hmade, habove⟩ := FileTree.makeDirectories_ok ht hdots hparent hopen
  have hlaid := laid_makeDirectories ht hn
  rcases hm : t.makeDirectories p.parent with ⟨tm, r⟩
  rw [hm] at hmade habove hlaid
  dsimp only at hmade habove hlaid
  subst hmade
  -- The way to the staged file ends where it does to the target, so no directory was made there.
  have hnotdir : tm.find? (p.staging.place tm.working) ≠ some .directory := by
    rw [hlaid.working, ne_eq, hlaid.directory_iff]
    · exact hdir
    · rw [List.forall_mem_singleton, ← Path.above_beside p stagingSuffix]
      exact Path.not_place_prefix_above hn.staging.ne_nil _
  have hdirectory : tm.find? (p.staging.above tm.working) = some .directory := by
    rw [hlaid.working, Path.staging, Path.above_beside]
    exact habove
  obtain ⟨t', hwrite⟩ := FileTree.write_eq_ok (c := content.toUTF8) hlaid.rooted hn.staging hf
    hdirectory hnotdir
  exact ⟨t', by simp only [stageAt, stage, hm, writeStaged, hwrite]⟩

/-- Nothing is in the way when files are staged: no file on the way to a target, no directory
where a file is staged, and no file is staged on the way to another target. -/
structure Stageable (directory : Path) (files : List GeneratedFile) (t : FileTree) : Prop where
  normal : ∀ f ∈ files, (target directory f).Normal
  fits : ∀ f ∈ files, (target directory f).staging.Fits
  above : ∀ f ∈ files, t.Open ((target directory f).above t.working)
  staging : ∀ f ∈ files,
    t.find? ((target directory f).staging.place t.working) ≠ some .directory
  clear : ∀ f ∈ files, ∀ g ∈ files,
    ¬ (target directory f).staging.place t.working <+: (target directory g).above t.working

/-- The directories made for one file and the file staged are in the way of no later one. -/
theorem Stageable.step {f : GeneratedFile} (h : Stageable directory (f :: files) t)
    (hlaid : t.Laid t₁ [(target directory f).above t.working]
      [(target directory f).staging.place t.working]) : Stageable directory files t₁ where
  normal g hg := h.normal g (List.mem_cons_of_mem _ hg)
  fits g hg := h.fits g (List.mem_cons_of_mem _ hg)
  above g hg r hr c hc := by
    have hg' := List.mem_cons_of_mem f hg
    rw [hlaid.working] at hr
    have hstaged : r ≠ (target directory f).staging.place t.working := by
      rintro rfl
      exact h.clear f List.mem_cons_self g hg' hr
    exact h.above g hg' r hr c ((hlaid.file_iff (by simpa using hstaged)).mp hc)
  staging g hg := by
    have hg' := List.mem_cons_of_mem f hg
    rw [hlaid.working, ne_eq, hlaid.directory_iff]
    · exact h.staging g hg'
    · rw [List.forall_mem_singleton]
      exact h.clear g hg' f List.mem_cons_self
  clear g hg g' hg' := by
    rw [hlaid.working]
    exact h.clear g (List.mem_cons_of_mem _ hg) g' (List.mem_cons_of_mem _ hg')

/-- Files are staged to the last one if nothing is in the way of any and the device does not
fail. -/
theorem stageAll_ok (ht : t.WellFormed) (h : Stageable directory files t) :
    (stageAll Faults.none directory files i t).2.2 = .ok () := by
  -- By induction on the files: each is staged, and in the tree that this leaves nothing is in the
  -- way of the others (`Stageable.step`).
  induction files generalizing i t with
  | nil => rfl
  | cons f rest ih =>
    have hf := List.mem_cons_self (a := f) (l := rest)
    have hn := h.normal f hf
    obtain ⟨t₁, hstage⟩ := stageAt_ok ht hn (h.fits f hf) (h.above f hf) (h.staging f hf) f.content
    rcases stageAt_stage ht hn none f.content with ⟨t', hok, hlaid, -⟩ | ⟨_, _, herror, -⟩
    · rw [hstage] at hok
      cases hok
      rw [stageAll_cons hn, show Faults.none.staging i = none from rfl, hstage]
      exact ih (hlaid.wellFormed ht) (h.step hlaid)
    · rw [hstage] at herror
      cases herror

/-! ### Moving -/

/-- Staged files can be moved to where nothing stands. -/
theorem moveAll_ok (h : Ready w ps t) (hnone : ∀ p ∈ ps, t.find? (p.place w) = none) :
    (moveAll Faults.none (ps.map stage) i t).2.2 = none := by
  induction ps generalizing i t with
  | nil => rfl
  | cons p rest ih =>
    obtain ⟨hp, hrest⟩ := List.forall_mem_cons.mp hnone
    have haside : Aside w t p t none := .absent hp
    have hex := FileTree.exists?_eq h.rooted h.head.1 (h.target_fits List.mem_cons_self)
      (h.working ▸ h.above List.mem_cons_self)
    rw [h.working, hp] at hex
    have hmove : moveAside t false p = .ok (t, none) := by simp [moveAside, hex]
    rcases rename_staging_eq h haside false with ⟨hfails, -⟩ | ⟨-, tb, hb, hplaced⟩
    · cases hfails
    · rw [List.map_cons]
      simp only [moveAll, stage, Faults.none, hmove, hb]
      refine ih (h.step haside hplaced) fun q hq => ?_
      rw [(find?_step h haside hplaced hq).1]
      exact hrest q hq

/-- Nothing is in the way of a call, and nothing stands at a target. -/
structure Room (directory : Path) (files : List GeneratedFile) (t : FileTree) : Prop
    extends Stageable directory files t where
  target : ∀ f ∈ files, t.find? ((FileSink.target directory f).place t.working) = none

/-- A call that finds nothing in its way succeeds. -/
theorem call_ok_of_room {s : FileSink} (ht : s.tree.WellFormed) (hs : Separate s.directory files)
    (hr : Room s.directory files s.tree) : (s.call Faults.none files).2.outcome = .ok () := by
  have hstageOk := stageAll_ok (i := 0) ht hr.toStageable
  rcases hst : stageAll Faults.none s.directory files 0 s.tree with ⟨t₁, staged, r⟩
  rw [hst] at hstageOk
  cases hstageOk
  obtain ⟨hstaged, hprepared⟩ := prepared_of_stageAll ht hs hst
  have hnone : ∀ p ∈ files.map (target s.directory),
      t₁.find? (p.place s.tree.working) = none := by
    intro p hp
    obtain ⟨f, hf, rfl⟩ := List.mem_map.mp hp
    exact (hprepared.none_iff hs hf).mpr (hr.target f hf)
  have hmoveOk := moveAll_ok (i := 0) hprepared.ready hnone
  rw [← hstaged] at hmoveOk
  rcases hmv : moveAll Faults.none staged 0 t₁ with ⟨t₂, moved, stop⟩
  rw [hmv] at hmoveOk
  cases hmoveOk
  -- Nothing stood at a target, so there are no backups to remove.
  have hm := hprepared.moves hstaged hmv
  have hbackups : moved.filterMap Moved.backup = [] := by
    rw [List.eq_nil_iff_forall_not_mem]
    intro b hb
    obtain ⟨p, hp, hstood, -⟩ := hm.mem_backups.mp hb
    exact hstood (hnone p hp)
  have hdiscard : discard (moved.filterMap Moved.backup) t₂ = (t₂, .ok ()) := by
    rw [hbackups]
    rfl
  rw [call_outcome, (writeAll_done hst hmv hdiscard).2]
  rfl

end FileSink

end TypedClient
