import TypedClient.Proofs.Package.Import

/-!
# `TypedClient.Proofs.Package.Specifier`: where a specifier leads

A file may be written with detours: with `.` and `..`, and with slashes repeated. Collapsing
deals with the `.`, the empty segments and the `..` alike, whether a path was made of the text
first or not, and the last segment stays last as long as it stands for itself. So an import
leads to the collapsed segments of its target, the last one without the suffix.

* `ModulePath.normalize_filter_isName`, `ModulePath.normalize_concat`: collapsing the segments
  of a path, and collapsing in front of a segment that stands for itself.
* `ModulePath.File`: what the text of a target says about its module.
* `ModulePath.import_leads_to_target`: the specifier that there is for it, and where it leads.
-/

set_option autoImplicit false

namespace TypedClient

variable {source target path : String} {segments : List String} {segment : String}

namespace Path

/-- A text that does not begin with a slash is a path without a root. -/
theorem root_ofString (h : Text.hasLead "/" path = false) : (ofString path).root = "" := by
  -- The root is made of the slashes at the front, and there are none.
  have hnone : (path.toList.takeWhile (· = '/')).length = 0 := by
    cases hchars : path.toList with
    | nil => rfl
    | cons c rest =>
      have hc : c ≠ '/' := by
        rintro rfl
        rw [Text.hasLead, hchars] at h
        exact Bool.noConfusion h
      simp [hc]
  rw [ofString, hnone]
  rfl

/-- A suffix is what is cut off. -/
theorem stem_append_suffix (p : Path) : p.stem ++ p.suffix = p.name := by
  rw [stem, suffix, ← String.ofList_append, ← String.toList_inj, String.toList_ofList]
  unfold splitSuffix
  dsimp only
  split
  · exact List.take_append_drop _ _
  · exact List.append_nil _

/-- A path whose last name has a stem has a last name, with the directories in front of it. -/
theorem names_eq_of_stem_ne (p : Path) (h : p.stem ≠ "") :
    p.names = p.names.dropLast ++ [p.name] := by
  have hne : p.names ≠ [] := by
    intro hnil
    refine h ?_
    rw [stem, name, hnil]
    rfl
  rw [name, List.getLast?_eq_some_getLast hne, Option.getD_some,
    List.dropLast_concat_getLast hne]

end Path

namespace ModulePath

/-! ### Collapsing -/

/-- What a path leaves out of its text would vanish anyway. -/
theorem normalize_filter_isName (segments : List String) :
    normalize (segments.filter Path.isName) = normalize segments := by
  rw [normalize_eq_foldl, normalize_eq_foldl, List.reverse_inj]
  -- The stack grows on the way, so the induction is for every stack.
  generalize ([] : List String) = stack
  induction segments generalizing stack with
  | nil => rfl
  | cons segment rest ih =>
    rw [List.filter_cons, List.foldl_cons]
    split
    · exact ih _
    · -- What is left out is empty or a single dot, and neither changes the stack.
      rename_i hname
      have hvoid : isVoid segment = true := by
        rw [Path.isName, Bool.and_eq_true, decide_eq_true_eq, decide_eq_true_eq] at hname
        rw [isVoid, Bool.or_eq_true, Bool.or_eq_true, decide_eq_true_eq, decide_eq_true_eq]
        grind
      rw [push_of_isVoid hvoid]
      exact ih _

/-- A segment at the end that stands for itself stays there, whatever the ones before it collapse
to: there is no `..` after it. -/
theorem normalize_concat (segments : List String) (h : Ordinary segment) :
    normalize (segments ++ [segment]) = normalize segments ++ [segment] := by
  rw [normalize_eq_foldl, normalize_eq_foldl, List.foldl_append, List.foldl_cons,
    List.foldl_nil, h.push_eq, List.reverse_cons]

/-- What a directory below the root collapses to has no step up at all, since those come first. -/
theorem ordinary_normalize (h : (normalize segments).head? ≠ some "..") :
    ∀ s ∈ normalize segments, Ordinary s := by
  have hcanonical := canonical_normalize segments
  cases hsegments : normalize segments with
  | nil => exact List.forall_mem_nil _
  | cons first rest =>
    rw [hsegments] at h hcanonical
    -- In canonical form the steps up stand in front, so a first one would be seen.
    exact hcanonical.ordinary fun hup => h (congrArg some hup)

/-! ### The target -/

/-- The text of a file whose module has a name: the directories above it collapse to `above`,
and the file and the module lie there. -/
structure File (target : String) (above : List String) : Prop where
  module : Ordinary (Path.ofString target).stem
  segments? : segments? target = some (above ++ [(Path.ofString target).stem])
  split : normalize (splitSlashes target)
    = above ++ [(Path.ofString target).stem ++ (Path.ofString target).suffix]
  slash : ∀ s ∈ above, '/' ∉ s.toList

/-- Nothing that is cut off a name makes it one that stands for itself. -/
theorem ordinary_name (h : Ordinary (Path.ofString path).stem) :
    Ordinary (Path.ofString path).name := by
  refine ordinary_of_not_mem (Path.not_mem_name path) fun hmem => ?_
  -- The only names that do not stand for themselves are three, and their stems do not either.
  have hstem : ∀ name ∈ ["", ".", ".."], ¬ Ordinary (String.ofList
      (Path.splitSuffix name.toList).1) := by decide
  exact hstem _ hmem h

/-- A target whose module has a name is a file with that module. The directories above are collapsed
once, and the file name and the module name stand behind the same ones. -/
theorem exists_file (htarget : Text.hasLead "/" target = false)
    (hstem : (Path.ofString target).stem ∉ ["", ".", ".."]) : ∃ above, File target above := by
  have hmodule := ordinary_of_not_mem (Path.not_mem_stem target) hstem
  -- The module: the name of the file is replaced by its stem.
  have hnames := (Path.ofString target).names_eq_of_stem_ne hmodule.ne.1
  have hroot := Path.root_ofString htarget
  refine ⟨normalize (Path.ofString target).names.dropLast, hmodule, ?_, ?_, ?_⟩
  · have hname : Path.isName (Path.ofString target).stem = true := by
      simp [Path.isName, hmodule.ne.1, hmodule.ne.2.1]
    have hsome : (Path.ofString target).names.isEmpty = false := by
      rw [hnames]
      simp
    have hslash : (Path.ofString target).stem.toList.contains '/' = false :=
      Bool.eq_false_iff.mpr fun h => Path.not_mem_stem target (List.contains_iff_mem.mp h)
    rw [ModulePath.segments?, Path.withName?, hsome, hname, hslash]
    simp only [Path.parts, hroot, Bool.not_true, Bool.or_false, Bool.false_eq_true, if_false,
      if_true, Option.map_some, normalize_concat _ hmodule]
  · -- The file: the names of the path are the segments of the text but for the empty ones and dots.
    rw [Path.stem_append_suffix, ← normalize_concat _ (ordinary_name hmodule), ← hnames]
    exact (normalize_filter_isName _).symm
  · intro s hs
    have hmem : s ∈ (Path.ofString target).names := List.dropLast_subset _ (mem_normalize hs)
    exact not_mem_of_mem_splitSlashes (List.mem_filter.mp hmem).1

/-! ### The import -/

/-- A file whose directory lies below the root can import every file whose module has a name,
and from there the specifier leads to the module: the segments of the target, collapsed, and
the last one without its suffix. -/
theorem import_leads_to_target (hsource : (normalize (directory source)).head? ≠ some "..")
    (htarget : Text.hasLead "/" target = false)
    (hstem : (Path.ofString target).stem ∉ ["", ".", ".."]) :
    ∃ specifier above, relativeImport? source target = some specifier ∧
      normalize (splitSlashes target)
        = above ++ [(Path.ofString target).stem ++ (Path.ofString target).suffix] ∧
      normalize (directory source ++ splitSlashes specifier)
        = above ++ [(Path.ofString target).stem] := by
  obtain ⟨above, hfile⟩ := exists_file htarget hstem
  obtain ⟨specifier, hspecifier⟩ : ∃ specifier, relativeImport? source target = some specifier := by
    rw [relativeImport?, hfile.segments?]
    exact ⟨_, rfl⟩
  -- The specifier is cut at its slashes again, so no segment may have one of its own.
  have hslash : ∀ module ∈ segments? target, ∀ s ∈ module, '/' ∉ s.toList := by
    intro module hmodule
    obtain rfl := Option.some.inj (hfile.segments?.symm.trans hmodule)
    exact List.forall_mem_append.mpr
      ⟨hfile.slash, List.forall_mem_singleton.mpr (Path.not_mem_stem target)⟩
  have himport := segments?_of_import (ordinary_normalize hsource) hslash hspecifier
  rw [hfile.segments?, Option.some.injEq] at himport
  exact ⟨specifier, above, hspecifier, hfile.split, himport.symm⟩

/-- Detours on both sides: the directory is `src/lib`, and the target `src/net/http.d.ts`. -/
theorem import_leads_through_detours :
    (normalize (directory "src//./a/../lib/x.ts")).head? ≠ some ".." ∧
      Text.hasLead "/" "src/../src/net//./http.d.ts" = false ∧
      (Path.ofString "src/../src/net//./http.d.ts").stem ∉ ["", ".", ".."] ∧
      ∃ specifier above,
        relativeImport? "src//./a/../lib/x.ts" "src/../src/net//./http.d.ts" = some specifier ∧
        normalize (splitSlashes "src/../src/net//./http.d.ts") = above ++ ["http.d" ++ ".ts"] ∧
        normalize (directory "src//./a/../lib/x.ts" ++ splitSlashes specifier)
          = above ++ ["http.d"] := by
  have hsource : (normalize (directory "src//./a/../lib/x.ts")).head? ≠ some ".." := by
    decide +kernel
  have htarget : Text.hasLead "/" "src/../src/net//./http.d.ts" = false := by decide
  have hstem : (Path.ofString "src/../src/net//./http.d.ts").stem ∉ ["", ".", ".."] := by
    decide +kernel
  refine ⟨hsource, htarget, hstem, ?_⟩
  have hname : (Path.ofString "src/../src/net//./http.d.ts").stem = "http.d" ∧
      (Path.ofString "src/../src/net//./http.d.ts").suffix = ".ts" := by decide +kernel
  have himport := import_leads_to_target hsource htarget hstem
  rwa [hname.1, hname.2] at himport

end ModulePath

end TypedClient
