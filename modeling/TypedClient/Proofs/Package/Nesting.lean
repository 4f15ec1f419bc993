import TypedClient.Proofs.FileTree.AllOrNothing
import TypedClient.Proofs.FileTree.Creation
import TypedClient.Proofs.Package.Layout

/-!
# `TypedClient.Proofs.Package.Nesting`: a package as a tree of files

The paths of a package are distinct, and only one of them is not fixed: that of the transport
module, which lies somewhere under the source directory. The fixed ones are no directories on the
way to each other, and none of them lies deep enough for the transport module to be one on the
way to it. So a package is a tree of files unless its transport module lies under a source file,
as it does for the specifier `./types.ts/http`.

* `Package.Flat`: no file of a package is a directory on the way to another one.
* `Package.apart_iff`: where the transport module may not lie.
* `Package.EmptyOutput`: nothing stands in the output directory, which may have to be made.
* `Package.flat_render_iff`: which packages are trees of files, and that these can be written.
-/

set_option autoImplicit false

namespace TypedClient.Package

open FileTree (Open Bare)
open FileSink (target stagingSuffix backupSuffix Delivered)
open ModulePath (localModule?)

variable {d : Document} {es : List Endpoint} {settings : Settings} {files : List GeneratedFile}
variable {directory : Path} {f g : GeneratedFile} {path suffix : String} {w : Place}

/-! ### Paths under paths -/

/-- No path, with the suffix added to it, is a directory on the way to another one. -/
def Apart (suffix : String) (paths : List String) : Prop :=
  ∀ p ∈ paths, ∀ q ∈ paths, Text.hasLead (p ++ suffix ++ "/") q = false

/-- The source files that every package has. -/
def sourceFiles : List String := [typesFile, clientFile, indexFile]

/-- No path lies under itself, which would make it longer than it is. -/
theorem hasLead_append_slash_self (p suffix : String) :
    Text.hasLead (p ++ suffix ++ "/") p = false := by
  refine Bool.eq_false_iff.mpr fun h => ?_
  obtain ⟨rest, hrest⟩ := Text.hasLead_iff.mp h
  have hlen := congrArg String.length hrest
  -- The slash alone is one character too many.
  have hslash : "/".length = 1 := by decide
  simp only [String.length_append] at hlen
  omega

/-- The fixed paths are no directories on the way to each other. -/
theorem apart_fixed (suffix : String) : Apart suffix (packagePaths none) := by
  have hleads : ∀ p ∈ packagePaths none, ∀ q ∈ packagePaths none,
      Text.hasLead p q = true → p = q := by
    decide +kernel
  intro p hp q hq
  refine Bool.eq_false_iff.mpr fun h => ?_
  -- A path that another one goes on from is that other one, and none goes on from itself.
  obtain rfl := hleads p hp q hq (Text.hasLead_of_append (Text.hasLead_of_append h))
  rw [hasLead_append_slash_self] at h
  cases h

/-- A path under the source directory has more segments than any of them. -/
theorem not_hasLead_fixed (h : Text.hasLead sourceLead path = true) (suffix : String) :
    ∀ q ∈ packagePaths none, Text.hasLead (path ++ suffix ++ "/") q = false := by
  have hshort : ∀ q ∈ packagePaths none, (splitSlashes q).length ≤ 2 := by decide +kernel
  intro q hq
  refine Bool.eq_false_iff.mpr fun hlead => ?_
  obtain ⟨more, hmore, hparts⟩ := hasLead_slash_iff.mp hlead
  obtain ⟨rest, rfl⟩ := Text.hasLead_iff.mp h
  have hlong : splitSlashes (sourceLead ++ rest ++ suffix)
      = "src" :: splitSlashes (rest ++ suffix) := by
    rw [String.append_assoc, show sourceLead = "src" ++ "/" from rfl,
      splitSlashes_append (by decide)]
  -- There would be `src`, a segment behind it, and one more below.
  have hlen := hshort q hq
  have hpos := List.length_pos_iff.mpr hmore
  have hpos' := List.length_pos_iff.mpr (splitSlashes_ne_nil (rest ++ suffix))
  rw [hparts, hlong, List.length_append, List.length_cons] at hlen
  omega

/-- Only a source file can be a directory on the way to a path under the source directory. -/
theorem not_hasLead_source (h : Text.hasLead sourceLead path = true) (suffix : String) :
    ∀ p ∈ packagePaths none, p ∉ sourceFiles →
      Text.hasLead (p ++ suffix ++ "/") path = false := by
  have hothers : ∀ p ∈ packagePaths none, p ∉ sourceFiles →
      Text.hasLead p sourceLead = false ∧ Text.hasLead sourceLead p = false := by
    decide +kernel
  intro p hp hnot
  refine Bool.eq_false_iff.mpr fun hlead => ?_
  obtain ⟨hno, hno'⟩ := hothers p hp hnot
  -- Both are leads of one path, so one of them is a lead of the other.
  rcases Text.hasLead_or_hasLead (Text.hasLead_of_append (Text.hasLead_of_append hlead)) h
    with hyes | hyes
  · rw [hno] at hyes
    cases hyes
  · rw [hno'] at hyes
    cases hyes

/-- The paths of a package are apart exactly if the transport module lies under no source file
with the suffix. -/
theorem apart_iff {transport : Option String}
    (h : ∀ path ∈ transport, Text.hasLead sourceLead path = true) (suffix : String) :
    Apart suffix (packagePaths transport) ↔ ∀ path ∈ transport, ∀ source ∈ sourceFiles,
      Text.hasLead (source ++ suffix ++ "/") path = false := by
  have hfixed : ∀ source ∈ sourceFiles, source ∈ packagePaths none := by decide
  constructor
  · exact fun hall path hpath source hsource =>
      hall source (mem_packagePaths_iff.mpr (.inr (hfixed source hsource)))
        path (mem_packagePaths_iff.mpr (.inl hpath))
  · -- Each of the two paths is the transport module's or a fixed one.
    intro hall p hp q hq
    rcases mem_packagePaths_iff.mp hp with hp | hp
    · rcases mem_packagePaths_iff.mp hq with hq | hq
      · obtain rfl : p = q := Option.some.inj ((Option.mem_def.mp hp).symm.trans hq)
        exact hasLead_append_slash_self p suffix
      · exact not_hasLead_fixed (h p hp) suffix q hq
    · rcases mem_packagePaths_iff.mp hq with hq | hq
      · by_cases hsource : p ∈ sourceFiles
        · exact hall q hq p hsource
        · exact not_hasLead_source (h q hq) suffix p hp hsource
      · exact apart_fixed suffix p hp q hq

/-- The paths of a package that was rendered. -/
theorem paths_of_render (h : (render d es settings).outcome = .ok files) :
    files.map GeneratedFile.path
      = packagePaths (localModule? clientFile settings.httpClientImport) :=
  (laidOut_of_render h).paths

/-- No file is a directory on the way to another one. -/
def Flat (files : List GeneratedFile) : Prop :=
  ∀ f ∈ files, ∀ g ∈ files, Text.hasLead (f.path ++ "/") g.path = false

/-- No file is a directory on the way to another one by the name that it is staged under. -/
def FlatStaging (files : List GeneratedFile) : Prop :=
  ∀ f ∈ files, ∀ g ∈ files, Text.hasLead (f.path ++ stagingSuffix ++ "/") g.path = false

/-- Being apart, said of files and not of their paths. -/
theorem apart_paths_iff : Apart suffix (files.map GeneratedFile.path) ↔
    ∀ f ∈ files, ∀ g ∈ files, Text.hasLead (f.path ++ suffix ++ "/") g.path = false := by
  simp only [Apart, List.forall_mem_map]

/-- Files that were rendered are apart exactly if the transport module, if there is one, lies under
no source file. The suffix is empty for the files themselves and that of staging for their
neighbours. -/
theorem apart_render_iff (h : (render d es settings).outcome = .ok files) (suffix : String) :
    (∀ f ∈ files, ∀ g ∈ files, Text.hasLead (f.path ++ suffix ++ "/") g.path = false) ↔
      ∀ path ∈ localModule? clientFile settings.httpClientImport, ∀ source ∈ sourceFiles,
        Text.hasLead (source ++ suffix ++ "/") path = false := by
  have hsource : ∀ path ∈ localModule? clientFile settings.httpClientImport,
      Text.hasLead sourceLead path = true := fun path hpath =>
    Text.hasLead_iff.mpr ((laidOut_of_render h).source path hpath)
  rw [← apart_paths_iff, paths_of_render h, apart_iff hsource]

/-! ### The places of a package -/

/-- The target of a file that is laid out is the directory with the segments of its path. -/
theorem LaidOut.target_eq (h : LaidOut settings files) (hf : f ∈ files) (directory : Path) :
    target directory f = ⟨directory.root, directory.names ++ splitSlashes f.path⟩ :=
  Package.target_eq (h.segments f hf) directory

/-- How the last names of a package end. -/
def endings : List (Option Char) := [some 's', some 'n', some 'd']

/-- The last segment of every path ends in one of three letters. Those of staging and of backups end
in others, which is what keeps them apart from targets. -/
theorem ending_packagePaths (httpClientImport : String) :
    ∀ path ∈ packagePaths (localModule? clientFile httpClientImport),
      ∃ init last, splitSlashes path = init ++ [last] ∧ last.toList.getLast? ∈ endings := by
  have hfixed : ∀ path ∈ packagePaths none,
      ((splitSlashes path).getLast?.bind fun last => last.toList.getLast?) ∈ endings := by
    decide +kernel
  intro path hpath
  rcases mem_packagePaths_iff.mp hpath with htransport | hother
  · -- The suffix of the transport module ends in the first of them.
    have hsource : ∀ s ∈ ModulePath.directory clientFile, '/' ∉ s.toList := by decide +kernel
    obtain ⟨init, last, -, hsplit, -⟩ := ModulePath.of_localModule?_eq_some hsource htransport
    exact ⟨init, _, hsplit, by simp [endings]⟩
  · obtain ⟨init, last, hsplit⟩ : ∃ init last, splitSlashes path = init ++ [last] :=
      ⟨_, _, (List.dropLast_concat_getLast (splitSlashes_ne_nil path)).symm⟩
    have hlast := hfixed path hother
    rw [hsplit, List.getLast?_concat] at hlast
    exact ⟨init, last, hsplit, hlast⟩

/-- A file of a package that was rendered, seen from a directory. -/
structure Placed (directory : Path) (f : GeneratedFile) (init : List String) (last : String) :
    Prop where
  split : splitSlashes f.path = init ++ [last]
  target_eq : target directory f = ⟨directory.root, directory.names ++ (init ++ [last])⟩
  ending : last.toList.getLast? ∈ endings
  no_slash : '/' ∉ last.toList

/-- Every file that was rendered is placed in the directory that it is written to. -/
theorem exists_placed (h : (render d es settings).outcome = .ok files) (hf : f ∈ files)
    (directory : Path) : ∃ init last, Placed directory f init last := by
  obtain ⟨init, last, hsplit, hending⟩ := ending_packagePaths settings.httpClientImport f.path
    (paths_of_render h ▸ List.mem_map_of_mem hf)
  refine ⟨init, last, hsplit, ?_, hending, ?_⟩
  · rw [(laidOut_of_render h).target_eq hf, hsplit]
  · exact not_mem_of_mem_splitSlashes (t := f.path) (by simp [hsplit])

namespace Placed

variable {init init' : List String} {last last' : String} (h : Placed directory f init last)
include h

/-- The name of the target is the last segment of the path. -/
theorem name_eq : (target directory f).name = last := by
  rw [h.target_eq, Path.name, ← List.append_assoc, List.getLast?_concat, Option.getD_some]

/-- The place of the target is that of the directory with the segments of the path. -/
theorem place_eq (w : Place) :
    (target directory f).place w = directory.place w ++ (init ++ [last]) := by
  rw [h.target_eq, Path.place, Path.place, Path.start, Path.start, List.append_assoc]

/-- The directory of the target is the output directory with the segments before the last. -/
theorem above_eq (w : Place) : (target directory f).above w = directory.place w ++ init := by
  rw [h.target_eq, Path.above, ← List.append_assoc, List.dropLast_concat]
  exact (List.append_assoc _ _ _).symm

/-- The place of the staging file is the target's, with the suffix behind its last segment. -/
theorem staging_eq (w : Place) : (target directory f).staging.place w
    = directory.place w ++ (init ++ [last ++ stagingSuffix]) := by
  rw [Path.place_staging, h.above_eq, h.name_eq, List.append_assoc]

/-- The path with the suffix of staging is cut into the same segments, the last one with the suffix,
as the suffix holds no slash. -/
theorem splitSlashes_staging :
    splitSlashes (f.path ++ stagingSuffix) = init ++ [last ++ stagingSuffix] := by
  have hslash : ∀ s ∈ init ++ [last ++ stagingSuffix], '/' ∉ s.toList := by
    refine List.forall_mem_append.mpr ⟨fun s hs => ?_, List.forall_mem_singleton.mpr ?_⟩
    · exact not_mem_of_mem_splitSlashes (h.split ▸ List.mem_append_left _ hs)
    · rw [String.toList_append, List.mem_append, not_or]
      exact ⟨h.no_slash, by decide⟩
  rw [← intercalate_splitSlashes f.path, h.split, ← intercalate_concat_append,
    splitSlashes_intercalate (by simp) hslash]

/-- No file is called what another one is called when it is staged or kept. -/
theorem ne_beside {s : String} (hs : s = stagingSuffix ∨ s = backupSuffix) (p : Path) :
    target directory f ≠ p.beside s := by
  intro heq
  have hname : last = p.name ++ s := by
    rw [← h.name_eq, heq, Path.beside, Path.name, List.getLast?_concat, Option.getD_some]
  have hend := h.ending
  rcases hs with rfl | rfl <;> simp [hname, endings, stagingSuffix, backupSuffix] at hend

end Placed

/-! ### Writing a package -/

/-- Nothing stands in the output directory, and no file is on the way to it. It may have to be
made. -/
structure EmptyOutput (directory : Path) (t : FileTree) : Prop where
  wellFormed : t.WellFormed
  plain : directory.names = [] ∨ directory.Normal
  above : t.Open (directory.place t.working)
  bare : t.Bare (directory.place t.working)

/-- The targets of a package are normal paths if the directory is one, or is the working
directory. -/
theorem normal_target (h : LaidOut settings files) (hf : f ∈ files)
    (hplain : directory.names = [] ∨ directory.Normal) : (target directory f).Normal := by
  have hdirectory : ∀ n ∈ directory.names, Path.isName n = true ∧ n ≠ ".." ∧ '/' ∉ n.toList := by
    rcases hplain with hnil | hnormal
    · simp [hnil]
    · exact fun n hn => ⟨hnormal.isName n hn, hnormal.ne_parent n hn, hnormal.no_slash n hn⟩
  have hall : ∀ n ∈ (target directory f).names,
      Path.isName n = true ∧ n ≠ ".." ∧ '/' ∉ n.toList := by
    rw [h.target_eq hf]
    refine List.forall_mem_append.mpr ⟨hdirectory, fun n hn => ?_⟩
    obtain ⟨hempty, hdot, hup⟩ := h.segments f hf n hn
    exact ⟨by simp [Path.isName, hempty, hdot], hup, not_mem_of_mem_splitSlashes hn⟩
  refine ⟨?_, fun n hn => (hall n hn).1, fun n hn => (hall n hn).2.1, fun n hn => (hall n hn).2.2⟩
  rw [h.target_eq hf]
  simp [splitSlashes_ne_nil]

/-- In a flat package the segments of one path do not begin those of another, and different paths
have different segments. -/
theorem not_prefix_of_flat (hflat : Flat files) (hf : f ∈ files) (hg : g ∈ files)
    (hne : f.path ≠ g.path) : ¬ splitSlashes f.path <+: splitSlashes g.path := by
  rintro ⟨more, hparts⟩
  -- With no more segments the paths are the same; with more the one lies under the other.
  by_cases hmore : more = []
  · rw [hmore, List.append_nil] at hparts
    refine hne ?_
    rw [← intercalate_splitSlashes f.path, hparts, intercalate_splitSlashes]
  · have hlead := hasLead_slash_iff.mpr ⟨more, hmore, hparts.symm⟩
    rw [hflat f hf g hg] at hlead
    cases hlead

/-- In a flat package no target is on the way to another one, and none is a staging or backup file
of another, so the sink may move each without touching the rest. -/
theorem separate_of_flat (h : (render d es settings).outcome = .ok files) (hflat : Flat files)
    (hplain : directory.names = [] ∨ directory.Normal) : FileSink.Separate directory files where
  normal _ hf := normal_target (laidOut_of_render h) hf hplain
  unrelated := by
    have hnodup := (laidOut_of_render h).nodup
    rw [List.Nodup, List.pairwise_map] at hnodup
    refine hnodup.imp_of_mem fun {f g} hf hg hne => ?_
    obtain ⟨_, _, hplacedf⟩ := exists_placed h hf directory
    obtain ⟨_, _, hplacedg⟩ := exists_placed h hg directory
    -- What is staged or kept beside a file is no target by its ending; the targets themselves are
    -- apart because the package is flat.
    refine ⟨?_, ?_, ⟨hplacedf.ne_beside (.inl rfl) _, hplacedg.ne_beside (.inl rfl) _⟩,
      ⟨hplacedf.ne_beside (.inr rfl) _, hplacedg.ne_beside (.inr rfl) _⟩⟩
    · rw [(laidOut_of_render h).target_eq hf, (laidOut_of_render h).target_eq hg,
        List.prefix_append_right_inj]
      exact not_prefix_of_flat hflat hf hg hne
    · rw [(laidOut_of_render h).target_eq hf, (laidOut_of_render h).target_eq hg,
        List.prefix_append_right_inj]
      exact not_prefix_of_flat hflat hg hf (Ne.symm hne)

/-- In an empty output directory nothing is found below it. -/
theorem EmptyOutput.find?_below {t : FileTree} (h : EmptyOutput directory t) {names : List String}
    (hne : names ≠ []) : t.find? (directory.place t.working ++ names) = none :=
  h.bare _ (List.prefix_append _ _) (by simpa using hne)

/-- An empty output directory has room for a package: every place that the sink looks at is on the
way to the directory, where there are only directories, or inside it, where there is nothing. -/
theorem room_of_emptyOutput {t : FileTree} (h : (render d es settings).outcome = .ok files)
    (hempty : EmptyOutput directory t) (hstaging : FlatStaging files)
    (hfits : ∀ f ∈ files, (target directory f).staging.Fits) :
    FileSink.Room directory files t where
  normal _ hf := normal_target (laidOut_of_render h) hf hempty.plain
  fits := hfits
  above f hf r hr c hc := by
    obtain ⟨init, _, hplaced⟩ := exists_placed h hf directory
    rw [hplaced.above_eq] at hr
    -- A place on the way is on the way to the output directory, or in it.
    rcases List.prefix_or_prefix_of_prefix hr (List.prefix_append _ _) with hout | hin
    · exact hempty.above r hout c hc
    · obtain ⟨names, rfl⟩ := hin
      by_cases hnil : names = []
      · exact hempty.above _ (by simp [hnil]) c hc
      · rw [hempty.find?_below hnil] at hc
        cases hc
  staging f hf := by
    obtain ⟨init, last, hplaced⟩ := exists_placed h hf directory
    rw [hplaced.staging_eq, hempty.find?_below (by simp)]
    simp
  -- A staging name above a target would be a lead of its path, as no segment is cut.
  clear f hf g hg hpre := by
    obtain ⟨init, last, hplaced⟩ := exists_placed h hf directory
    obtain ⟨init', last', hplaced'⟩ := exists_placed h hg directory
    rw [hplaced.staging_eq, hplaced'.above_eq, List.prefix_append_right_inj] at hpre
    obtain ⟨more, hmore⟩ := hpre
    have hlead : Text.hasLead (f.path ++ stagingSuffix ++ "/") g.path = true := by
      refine hasLead_slash_iff.mpr ⟨more ++ [last'], by simp, ?_⟩
      rw [hplaced.splitSlashes_staging, hplaced'.split, ← hmore, List.append_assoc]
    rw [hstaging f hf g hg] at hlead
    cases hlead
  target f hf := by
    obtain ⟨init, last, hplaced⟩ := exists_placed h hf directory
    rw [hplaced.place_eq, hempty.find?_below (by simp)]

/-- A package that is rendered is a tree of files exactly if its transport module lies under none
of the other source files. If it lies under none of their staging names either, the sink writes
all of it to an empty output directory that the file system has the names for. -/
theorem flat_render_iff (d : Document) (es : List Endpoint) (settings : Settings)
    (files : List GeneratedFile) (h : (render d es settings).outcome = .ok files) :
    (Flat files ↔ ∀ path ∈ localModule? clientFile settings.httpClientImport,
      ∀ source ∈ sourceFiles, Text.hasLead (source ++ "/") path = false) ∧
    (FlatStaging files ↔ ∀ path ∈ localModule? clientFile settings.httpClientImport,
      ∀ source ∈ sourceFiles, Text.hasLead (source ++ stagingSuffix ++ "/") path = false) ∧
    ∀ s : FileSink, EmptyOutput s.directory s.tree →
      (∀ f ∈ files, (target s.directory f).staging.Fits) → Flat files → FlatStaging files →
        (s.call Faults.none files).2.outcome = .ok () ∧
          Delivered s (s.call Faults.none files).1 files := by
  refine ⟨?_, apart_render_iff h stagingSuffix, fun s hempty hfits hflat hstaging => ?_⟩
  · have hiff := apart_render_iff h ""
    simp only [String.append_empty] at hiff
    exact hiff
  · -- Flatness keeps the targets apart, and the empty directory leaves room for them.
    have hseparate := separate_of_flat h hflat hempty.plain
    have hok := FileSink.call_ok_of_room hempty.wellFormed hseparate
      (room_of_emptyOutput h hempty hstaging hfits)
    obtain ⟨_, _, _, hprepared, hmoves, hdiscard, hwritten⟩ :=
      FileSink.of_call_eq_ok hempty.wellFormed hseparate hok
    exact ⟨hok, hmoves.delivered hseparate hprepared hdiscard hwritten⟩

/-- A file system without anything in it has nothing in the output directory either. -/
theorem emptyOutput_of_no_entries (h : directory.names = [] ∨ directory.Normal) :
    EmptyOutput directory ⟨[], []⟩ where
  wellFormed := by decide
  plain := h
  above r _ c hc := by
    unfold FileTree.find? at hc
    split at hc <;> cases hc
  bare r hr hne := by
    have hnil : r ≠ [] := by
      rintro rfl
      exact hne (List.prefix_nil.mp hr)
    simp [FileTree.find?, hnil]

/-- The transport module of this package has a directory of its own. -/
theorem flat_render_detour :
    ∃ files,
      (render default [] (transportSettings "./lib/../net//./http.js")).outcome = .ok files ∧
      Flat files ∧ (∃ f ∈ files, f.path = "src/net/http.ts") ∧
      ((⟨Path.ofString "out", ⟨[], []⟩, []⟩ : FileSink).call Faults.none files).2.outcome
        = .ok () := by
  have hok : (render default [] (transportSettings "./lib/../net//./http.js")).outcome.isOk
      = true := by
    decide +kernel
  have hlocal : localModule? clientFile
      (transportSettings "./lib/../net//./http.js").httpClientImport = some "src/net/http.ts" := by
    decide +kernel
  obtain ⟨files, hfiles⟩ := exists_of_isOk hok
  obtain ⟨hflat, hstaging, hwritten⟩ := flat_render_iff default []
    (transportSettings "./lib/../net//./http.js") files hfiles
  have hpaths := paths_of_render hfiles
  rw [hlocal] at hflat hstaging hpaths
  have hclear := hflat.mpr (by decide +kernel)
  refine ⟨files, hfiles, hclear, ?_, ?_⟩
  · exact List.mem_map.mp (hpaths ▸ (by decide : "src/net/http.ts" ∈
      packagePaths (some "src/net/http.ts")))
  · refine (hwritten ⟨Path.ofString "out", ⟨[], []⟩, []⟩
      (emptyOutput_of_no_entries (.inr (by decide +kernel))) (fun f hf => ?_) hclear
      (hstaging.mpr (by decide +kernel))).1
    have hfits : ∀ path ∈ packagePaths (some "src/net/http.ts"),
        (target (Path.ofString "out") ⟨path, ""⟩).staging.Fits := by
      decide +kernel
    exact hfits f.path (hpaths ▸ List.mem_map_of_mem hf)

/-- This transport module lies in a directory with the name of the types. -/
theorem nested_transport :
    ∃ files, (render default [] (transportSettings "./types.ts/http")).outcome = .ok files ∧
      ∃ f ∈ files, ∃ g ∈ files, f.path = "src/types.ts" ∧ g.path = "src/types.ts/http.ts" ∧
        ¬ Flat files := by
  have hok : (render default [] (transportSettings "./types.ts/http")).outcome.isOk = true := by
    decide +kernel
  have hlocal : localModule? clientFile (transportSettings "./types.ts/http").httpClientImport
      = some "src/types.ts/http.ts" := by
    decide +kernel
  obtain ⟨files, hfiles⟩ := exists_of_isOk hok
  have hpaths := paths_of_render hfiles
  rw [hlocal] at hpaths
  have hmem : ∀ path ∈ packagePaths (some "src/types.ts/http.ts"), ∃ f ∈ files, f.path = path :=
    fun path hpath => List.mem_map.mp (hpaths ▸ hpath)
  obtain ⟨f, hf, hfpath⟩ := hmem "src/types.ts" (by decide)
  obtain ⟨g, hg, hgpath⟩ := hmem "src/types.ts/http.ts" (by decide)
  refine ⟨files, hfiles, f, hf, g, hg, hfpath, hgpath, fun hflat => ?_⟩
  have hlead : Text.hasLead (f.path ++ "/") g.path = true := by
    rw [hfpath, hgpath]
    decide
  rw [hflat f hf g hg] at hlead
  cases hlead

end TypedClient.Package
