import TypedClient.Package.Layout
import TypedClient.Proofs.Package.ModulePath

/-!
# `TypedClient.Proofs.Package.Import`: imports that lead where they should

The specifier by which one file imports another is made from collapsed segments, so the
segments of the importing directory and after them those of the specifier collapse to the
module. What is done to the text of the last segment, and to the text of the specifier, is
another matter: two dots in front of a specifier pass for a step up, and a suffix of a module
that is left on its name is taken off when the specifier is read.

* `ModulePath.normalize_relative`: the segments from a directory to a module lead there.
* `ModulePath.segments?_of_import`: so do those of the specifier.
* `Package.reexported_iff`: the transport modules that the index imports.
-/

set_option autoImplicit false

namespace TypedClient

variable {path source target specifier name : String} {init segments : List String}

/-! ### The segments from a directory to a module -/

namespace ModulePath

/-- As far as directory and module have their segments in common, they are the same. -/
theorem take_commonLength (directory module : List String) :
    directory.take (commonLength directory module)
      = module.take (commonLength directory module) := by
  fun_induction commonLength directory module with
  | case1 d ds n ms ih => simp [ih]
  | case2 => rfl
  | case3 => rfl

/-- Directory and module have no more segments in common than the directory has. -/
theorem commonLength_le (directory module : List String) :
    commonLength directory module ≤ directory.length := by
  fun_induction commonLength directory module with
  | case1 d ds n ms ih => simpa using ih
  | case2 => exact Nat.zero_le _
  | case3 => exact Nat.zero_le _

/-- As many `..` as the directory has segments of its own, and then the segments that the
module has of its own. -/
theorem normalize_relative {directory : List String} (h : ∀ s ∈ directory, Ordinary s)
    (module : List String) :
    normalize (directory ++ relative directory module) = normalize module := by
  have hcommon := take_commonLength directory module
  have hle := commonLength_le directory module
  rw [relative]
  generalize commonLength directory module = common at hcommon hle ⊢
  have hshared : ∀ s ∈ module.take common, Ordinary s := fun s hs =>
    h s (List.mem_of_mem_take (hcommon ▸ hs))
  have hown : ∀ s ∈ (directory.drop common).reverse, Ordinary s := fun s hs =>
    h s (List.mem_of_mem_drop (List.mem_reverse.mp hs))
  have hback : directory.reverse
      = (directory.drop common).reverse ++ (module.take common).reverse := by
    rw [← hcommon, ← List.reverse_append, List.take_append_drop]
  have hups : directory.length - common = (directory.drop common).reverse.length := by simp
  -- What is left of the directory is what collapsing the module starts with.
  have hmodule : module.foldl push []
      = (module.drop common).foldl push (module.take common).reverse := by
    rw [← List.append_nil (List.reverse _), ← foldl_push_of_ordinary hshared,
      ← List.foldl_append, List.take_append_drop]
  rw [normalize_eq_foldl, normalize_eq_foldl, hmodule, List.foldl_append, List.foldl_append,
    foldl_push_of_ordinary h, List.append_nil, hups, hback, foldl_push_ups hown]

/-- Segments that are joined by slashes and cut again are the same, but that no segments at all
become one empty segment, which vanishes. -/
theorem normalize_append_splitSlashes_intercalate (h : ∀ s ∈ segments, '/' ∉ s.toList)
    (before : List String) :
    normalize (before ++ splitSlashes ("/".intercalate segments))
      = normalize (before ++ segments) := by
  by_cases hnil : segments = []
  · subst hnil
    exact normalize_append_cons_of_isVoid (by decide) []
  · rw [splitSlashes_intercalate hnil h]

/-- From the directory of the file that imports it, a specifier leads to the module that it was
made for. -/
theorem segments?_of_import (hsource : ∀ s ∈ normalize (directory source), Ordinary s)
    (htarget : ∀ module ∈ segments? target, ∀ s ∈ module, '/' ∉ s.toList)
    (h : relativeImport? source target = some specifier) :
    segments? target = some (normalize (directory source ++ splitSlashes specifier)) := by
  obtain ⟨module, hmodule, rfl⟩ := Option.map_eq_some_iff.mp h
  have hcollapsed : normalize module = module := by
    obtain ⟨_, -, rfl⟩ := Option.map_eq_some_iff.mp hmodule
    exact (canonical_normalize _).normalize_eq
  have hslash : ∀ s ∈ relative (normalize (directory source)) module, '/' ∉ s.toList := by
    intro s hs
    rcases List.mem_append.mp hs with hs | hs
    · rw [List.eq_of_mem_replicate hs]
      decide
    · exact htarget module hmodule s (List.mem_of_mem_drop hs)
  rw [hmodule, normalize_append]
  dsimp only
  split
  · rw [normalize_append_splitSlashes_intercalate hslash, normalize_relative hsource, hcollapsed]
  · -- The dot in front is a segment that vanishes.
    rw [show ∀ s, "./" ++ s = "." ++ "/" ++ s from fun _ => rfl, splitSlashes_append (by decide),
      normalize_append_cons_of_isVoid (by decide),
      normalize_append_splitSlashes_intercalate hslash, normalize_relative hsource, hcollapsed]

end ModulePath

/-! ### The segments of a file -/

namespace Path

/-- Of a name with the suffix of a module that suffix is cut off, dots before it or not. -/
theorem splitSuffix_append_suffix {name : List Char} (h : name ≠ []) :
    splitSuffix (name ++ ".ts".toList) = (name, ".ts".toList) := by
  have hpos : 0 < name.length := List.length_pos_iff.mpr h
  have htail : ((name ++ ".ts".toList).reverse.takeWhile (· ≠ '.')).length = 2 := by
    rw [List.reverse_append]
    rfl
  have hdot : (name ++ ".ts".toList).length - 2 - 1 = name.length := by simp
  unfold splitSuffix
  dsimp only
  rw [htail, hdot, if_pos (by simp [hpos]), List.take_left, List.drop_left]

/-- The path of a file whose segments stand for themselves. -/
theorem ofString_eq (hroot : (ofString path).root = "")
    (h : ∀ s ∈ splitSlashes path, ModulePath.Ordinary s) :
    ofString path = ⟨"", splitSlashes path⟩ := by
  rw [← filter_isName fun s hs => (h s hs).ne, ← hroot]
  rfl

end Path

/-- A file below the package, and the name of its module. -/
structure SourceFile (path : String) (init : List String) (name : String) : Prop where
  root : (Path.ofString path).root = ""
  split : splitSlashes path = init ++ [name ++ ".ts"]
  ordinary : ∀ s ∈ splitSlashes path, ModulePath.Ordinary s
  ne : name ≠ ""

namespace SourceFile

variable (h : SourceFile path init name)
include h

/-- The path of the file has its segments as they are, since none of them vanishes. -/
theorem ofString_eq : Path.ofString path = ⟨"", init ++ [name ++ ".ts"]⟩ := by
  rw [Path.ofString_eq h.root h.ordinary, h.split]

/-- The name of the module holds no slash, since it is part of a segment. -/
theorem not_mem_name : '/' ∉ name.toList := by
  have hlast : name ++ ".ts" ∈ splitSlashes path := by simp [h.split]
  intro hmem
  refine not_mem_of_mem_splitSlashes hlast ?_
  rw [String.toList_append]
  exact List.mem_append_left _ hmem

/-- The stem of the file is the name of its module. -/
theorem stem_eq : (Path.ofString path).stem = name := by
  have hne : name.toList ≠ [] := by simpa using h.ne
  rw [h.ofString_eq, Path.stem, Path.name, List.getLast?_concat, Option.getD_some,
    String.toList_append, Path.splitSuffix_append_suffix hne, String.ofList_toList]

/-- The name of the module may be one of two that its file does not have: with the suffix behind
them they stand for themselves, and without it they do not. -/
theorem ordinary_name (hdot : name ≠ ".") (hup : name ≠ "..") : ModulePath.Ordinary name :=
  ModulePath.ordinary_of_not_mem h.not_mem_name (by simp [h.ne, hdot, hup])

/-- If the name of the module stands for itself, so do all of its segments. -/
theorem ordinary_module (hname : ModulePath.Ordinary name) :
    ∀ s ∈ init ++ [name], ModulePath.Ordinary s := by
  have hpath := h.ordinary
  rw [h.split, List.forall_mem_append] at hpath
  exact List.forall_mem_append.mpr ⟨hpath.1, List.forall_mem_singleton.mpr hname⟩

/-- No segment of the module holds a slash. -/
theorem not_mem_module : ∀ s ∈ init ++ [name], '/' ∉ s.toList := by
  refine List.forall_mem_append.mpr
    ⟨fun s hs => not_mem_of_mem_splitSlashes (h.split ▸ List.mem_append_left _ hs), ?_⟩
  exact List.forall_mem_singleton.mpr h.not_mem_name

/-- The name `.` is the one that no module can have. -/
theorem segments?_eq : ModulePath.segments? path
    = if name = "." then none else some (ModulePath.normalize (init ++ [name])) := by
  rw [ModulePath.segments?, h.stem_eq, h.ofString_eq]
  split
  · rename_i hdot
    simp [Path.withName?, Path.isName, hdot]
  · rename_i hdot
    simp [Path.withName?, Path.isName, hdot, h.ne, h.not_mem_name, Path.parts]

end SourceFile

/-- Two dots in front of segments that stand for themselves are in front of the first one, so
what comes after the segments does not matter. -/
theorem hasLead_intercalate_append (h : ∀ s ∈ segments, ModulePath.Ordinary s)
    (hslash : ∀ s ∈ segments, '/' ∉ s.toList) (hne : segments ≠ []) (rest : String) :
    Text.hasLead ".." ("/".intercalate segments ++ rest)
      = Text.hasLead ".." ("/".intercalate segments) := by
  have hsplit := splitSlashes_intercalate hne hslash
  generalize "/".intercalate segments = s at hsplit
  subst hsplit
  rw [Bool.eq_iff_iff]
  constructor
  · intro hlead
    rw [Text.hasLead, List.isPrefixOf_iff_prefix] at hlead ⊢
    rw [String.toList_append] at hlead
    rcases List.prefix_or_prefix_of_prefix hlead (List.prefix_append _ _) with hdots | hshort
    · exact hdots
    · -- One dot, or nothing, would be a segment of its own.
      obtain hs | ⟨t, hs, rfl | rfl⟩ : s.toList = [] ∨
          ∃ t, s.toList = '.' :: t ∧ (t = [] ∨ t = ['.']) := by
        simpa [List.prefix_cons_iff] using hshort
      · obtain rfl : s = "" := String.toList_injective hs
        exact absurd (h "" (by decide)) (by decide)
      · obtain rfl : s = "." := String.toList_injective hs
        exact absurd (h "." (by decide)) (by decide)
      · rw [hs]
        exact List.prefix_rfl
  · intro hlead
    obtain ⟨tail, htail⟩ := Text.hasLead_iff.mp hlead
    exact Text.hasLead_iff.mpr ⟨tail ++ rest, by rw [htail, String.append_assoc]⟩

/-! ### The index and the transport -/

namespace Package

open ModulePath (Ordinary normalize relativeImport? localModule? isRelative withoutSuffix)

/-- The index imports the file by a relative specifier, and there the specifier denotes the
file. -/
def Reexported (path : String) : Prop :=
  ∃ specifier, relativeImport? indexFile path = some specifier ∧ isRelative specifier = true ∧
    localModule? indexFile specifier = some path

instance : DecidablePred Reexported := fun path =>
  decidable_of_iff ((relativeImport? indexFile path).any fun specifier =>
      isRelative specifier && localModule? indexFile specifier = some path) <| by
    simp [Reexported, Option.any_eq_true]

/-- The text of a path says nothing else than its segments do. -/
structure Addressable (path : String) : Prop where
  /-- The specifier would start with two dots as if it were to lead upwards. -/
  lead : Text.hasLead "src/.." path = false
  /-- These names of a module would be taken for directories. -/
  name : (Path.ofString path).stem ≠ "." ∧ (Path.ofString path).stem ≠ ".."
  /-- A suffix that the name ends in would be taken off as well. -/
  suffix : withoutSuffix (Path.ofString path).stem = (Path.ofString path).stem

instance : DecidablePred Addressable := fun path =>
  decidable_of_iff (Text.hasLead "src/.." path = false ∧
      ((Path.ofString path).stem ≠ "." ∧ (Path.ofString path).stem ≠ "..") ∧
        withoutSuffix (Path.ofString path).stem = (Path.ofString path).stem)
    ⟨fun ⟨lead, name, suffix⟩ => ⟨lead, name, suffix⟩, fun h => ⟨h.lead, h.name, h.suffix⟩⟩

/-- A file under the source directory that a specifier denotes is a module below it. Its name is not
empty, as the suffix is put on something. -/
theorem sourceFile_of_localModule? (h : localModule? clientFile specifier = some path)
    (hsource : Text.hasLead sourceLead path = true) :
    ∃ init name, SourceFile path ("src" :: init) name := by
  have hclient : ∀ s ∈ ModulePath.directory clientFile, '/' ∉ s.toList := by decide +kernel
  obtain ⟨init, last, hnormal, hsplit, hordinary⟩ :=
    ModulePath.of_localModule?_eq_some hclient h
  obtain ⟨rest, rfl⟩ := Text.hasLead_iff.mp hsource
  obtain ⟨init, rfl⟩ : ∃ tail, init = "src" :: tail := by
    rw [show sourceLead = "src" ++ "/" from rfl, splitSlashes_append (by decide)] at hsplit
    cases init with
    | nil => exact absurd (List.cons.inj hsplit).2 (splitSlashes_ne_nil rest)
    | cons first tail => exact ⟨tail, by rw [(List.cons.inj hsplit).1]⟩
  have hlast : Ordinary last :=
    (hnormal ▸ ModulePath.canonical_normalize _ : ModulePath.Canonical ("src" :: init ++ [last]))
      |>.ordinary (by decide) last (by simp)
  refine ⟨init, withoutSuffix last, ?_, hsplit, hordinary,
    ModulePath.withoutSuffix_ne_empty hlast.ne.1⟩
  simp [Path.ofString, sourceLead]

/-- What the segments of the specifier collapse to, for a module that the index can import. -/
theorem normalize_of_import (h : SourceFile path init name) (hname : name ≠ ".")
    (hspecifier : relativeImport? indexFile path = some specifier) :
    normalize (ModulePath.directory indexFile ++ splitSlashes specifier)
      = normalize (init ++ [name]) := by
  have hindex : ∀ s ∈ normalize (ModulePath.directory indexFile), Ordinary s := by decide +kernel
  have hsegments := h.segments?_eq
  rw [if_neg hname] at hsegments
  have hslash : ∀ module ∈ ModulePath.segments? path, ∀ s ∈ module, '/' ∉ s.toList := by
    intro module hmodule s hs
    obtain rfl := Option.some.inj (hsegments.symm.trans hmodule)
    exact h.not_mem_module s (ModulePath.mem_normalize hs)
  have himport := ModulePath.segments?_of_import hindex hslash hspecifier
  exact (Option.some.inj (hsegments.symm.trans himport)).symm

/-- The segments of a module seen from the source directory. -/
theorem below_source (h : SourceFile path ("src" :: init) name) (hname : Ordinary name) :
    (∀ s ∈ init ++ [name], Ordinary s) ∧ ∀ s ∈ init ++ [name], '/' ∉ s.toList :=
  ⟨fun s hs => h.ordinary_module hname s (List.mem_cons_of_mem _ hs),
    fun s hs => h.not_mem_module s (List.mem_cons_of_mem _ hs)⟩

/-- The specifier by which the index imports a module: its segments below the source directory, with
`./` in front unless they seem to lead up already. -/
theorem relativeImport?_index (h : SourceFile path ("src" :: init) name) (hname : Ordinary name) :
    relativeImport? indexFile path = some
      (if Text.hasLead ".." ("/".intercalate (init ++ [name])) then
        "/".intercalate (init ++ [name])
      else "./" ++ "/".intercalate (init ++ [name])) := by
  have hindex : normalize (ModulePath.directory indexFile) = ["src"] := by decide +kernel
  have hrelative : ModulePath.relative ["src"] ("src" :: init ++ [name]) = init ++ [name] := by
    obtain ⟨first, rest, hcons⟩ := List.exists_cons_of_ne_nil (l := init ++ [name]) (by simp)
    rw [List.cons_append, hcons]
    simp [ModulePath.relative, ModulePath.commonLength]
  rw [relativeImport?, h.segments?_eq, if_neg hname.ne.2.1,
    (ModulePath.canonical_of_ordinary (h.ordinary_module hname)).normalize_eq, hindex,
    Option.map_some, hrelative]

/-- Whether the specifier seems to lead up can be told from the path of the file. -/
theorem hasLead_up (h : SourceFile path ("src" :: init) name) (hname : Ordinary name) :
    Text.hasLead "src/.." path = Text.hasLead ".." ("/".intercalate (init ++ [name])) := by
  have hpath : path = "src/" ++ ("/".intercalate (init ++ [name]) ++ ".ts") := by
    obtain ⟨first, rest, hcons⟩ := List.exists_cons_of_ne_nil (l := init ++ [name ++ ".ts"])
      (by simp)
    rw [← intercalate_concat_append, hcons, ← intercalate_splitSlashes path, h.split,
      List.cons_append, hcons, String.intercalate_cons_cons]
    rfl
  obtain ⟨hordinary, hslash⟩ := below_source h hname
  rw [hpath, ← hasLead_intercalate_append hordinary hslash (by simp) ".ts"]
  simp [Text.hasLead]

/-- If the specifier denotes the file again, then it ends in the name of the module. -/
theorem name_of_reexported (h : SourceFile path ("src" :: init) name) (hre : Reexported path) :
    Ordinary name ∧ withoutSuffix name = name := by
  obtain ⟨specifier, hspecifier, -, hlocal⟩ := hre
  have hindex : ∀ s ∈ ModulePath.directory indexFile, '/' ∉ s.toList := by decide +kernel
  obtain ⟨init', last, hnormal, hsplit, -⟩ := ModulePath.of_localModule?_eq_some hindex hlocal
  rw [h.split] at hsplit
  obtain ⟨hinit, hlast⟩ := List.append_inj' hsplit (by simp)
  have hname : name = withoutSuffix last := by simpa [← String.toList_inj] using hlast
  have hdot : name ≠ "." := by
    intro hdot
    rw [relativeImport?, h.segments?_eq, if_pos hdot] at hspecifier
    cases hspecifier
  rw [normalize_of_import h hdot hspecifier, ← hinit] at hnormal
  have hdirectory : ∀ s ∈ "src" :: init, Ordinary s := fun s hs =>
    h.ordinary s (h.split ▸ List.mem_append_left _ hs)
  have hup : name ≠ ".." := by
    rintro rfl
    -- The directory of the file would be taken back, and the module be shorter than its file.
    obtain ⟨above, below, habove⟩ : ∃ above below, "src" :: init = above ++ [below] :=
      ⟨_, _, (List.dropLast_concat_getLast (List.cons_ne_nil "src" init)).symm⟩
    rw [habove, List.forall_mem_append, List.forall_mem_singleton] at hdirectory
    rw [habove, ModulePath.normalize_concat_up hdirectory.1 hdirectory.2] at hnormal
    have hlength := congrArg List.length hnormal
    simp only [List.length_append, List.length_singleton] at hlength
    omega
  have hordinary := h.ordinary_name hdot hup
  rw [(ModulePath.canonical_of_ordinary (List.forall_mem_append.mpr
    ⟨hdirectory, List.forall_mem_singleton.mpr hordinary⟩)).normalize_eq] at hnormal
  obtain ⟨-, hsame⟩ := List.append_inj' hnormal (by simp)
  rw [← List.singleton_inj.mp hsame] at hname
  exact ⟨hordinary, hname.symm⟩

/-- The index imports the transport module that was emitted exactly if its path says nothing
else than its segments do. Whichever specifier the module was asked for by, two dots in front of
a name, a name made of dots and a second suffix are read as something else. -/
theorem reexported_iff (h : localModule? clientFile specifier = some path)
    (hsource : Text.hasLead sourceLead path = true) : Reexported path ↔ Addressable path := by
  obtain ⟨init, name, hfile⟩ := sourceFile_of_localModule? h hsource
  have hstem := hfile.stem_eq
  constructor
  · intro hre
    obtain ⟨hname, hsuffix⟩ := name_of_reexported hfile hre
    refine ⟨?_, by rw [hstem]; exact hname.ne.2, by rw [hstem, hsuffix]⟩
    obtain ⟨specifier', hspecifier, hrelative, -⟩ := hre
    rw [hasLead_up hfile hname]
    refine Bool.eq_false_iff.mpr fun hlead => ?_
    -- The segments of the module are then the whole specifier, and it is not relative.
    rw [relativeImport?_index hfile hname, if_pos hlead, Option.some.injEq] at hspecifier
    obtain ⟨segment, hmem, hnot⟩ := ModulePath.exists_not_ordinary hrelative
    obtain ⟨hordinary, hslash⟩ := below_source hfile hname
    rw [← hspecifier, splitSlashes_intercalate (by simp) hslash] at hmem
    exact hnot (hordinary segment hmem)
  · rintro ⟨hlead, hname, hsuffix⟩
    rw [hstem] at hname hsuffix
    have hname := hfile.ordinary_name hname.1 hname.2
    rw [hasLead_up hfile hname] at hlead
    have hspecifier := relativeImport?_index hfile hname
    rw [hlead, if_neg (by decide)] at hspecifier
    have hordinary : ∀ s ∈ "src" :: init ++ [name], Ordinary s := hfile.ordinary_module hname
    have hnormal := normalize_of_import hfile hname.ne.2.1 hspecifier
    rw [(ModulePath.canonical_of_ordinary hordinary).normalize_eq] at hnormal
    refine ⟨_, hspecifier, by simp [isRelative, Text.hasLead], ?_⟩
    rw [ModulePath.localModule?_eq (by simp [isRelative, Text.hasLead]) hnormal hordinary, hsuffix,
      ← hfile.split, intercalate_splitSlashes]

/-- A specifier that takes detours and spells out a suffix denotes a module that is imported
under its own name. -/
theorem reexported_detour :
    localModule? clientFile "./lib/../net//./http.js" = some "src/net/http.ts" ∧
      Text.hasLead sourceLead "src/net/http.ts" = true ∧ Reexported "src/net/http.ts" := by
  have hlocal : localModule? clientFile "./lib/../net//./http.js" = some "src/net/http.ts" := by
    decide +kernel
  have hsource : Text.hasLead sourceLead "src/net/http.ts" = true := by decide
  exact ⟨hlocal, hsource, (reexported_iff hlocal hsource).mpr (by decide +kernel)⟩

/-- These specifiers denote source files that the index does not import: the first one by `..foo`,
which is a package, the second one by `./a.ts`, which is `src/a.ts`, and the third one not at
all. -/
theorem transports_not_reexported :
    (localModule? clientFile "./..foo" = some "src/..foo.ts" ∧
      Text.hasLead sourceLead "src/..foo.ts" = true ∧ ¬ Reexported "src/..foo.ts") ∧
    (localModule? clientFile "./a.ts.ts" = some "src/a.ts.ts" ∧
      Text.hasLead sourceLead "src/a.ts.ts" = true ∧ ¬ Reexported "src/a.ts.ts") ∧
    localModule? clientFile "./..ts" = some "src/..ts" ∧
      Text.hasLead sourceLead "src/..ts" = true ∧ ¬ Reexported "src/..ts" := by
  decide +kernel

end Package

end TypedClient
