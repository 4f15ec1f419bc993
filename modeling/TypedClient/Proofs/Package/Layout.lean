import TypedClient.Package.Layout
import TypedClient.Proofs.FileTree.Locate
import TypedClient.Proofs.Client.Method
import TypedClient.Proofs.Package.ModulePath

/-!
# `TypedClient.Proofs.Package.Layout`: where the files of a package go

The transport module is the one file of a package whose path the settings choose. Its
specifier is collapsed before it is looked at, so whatever the specifier is, the path that
comes of it has no segment that leads elsewhere. What is left to be refused is a path beside
the source directory, and one that another source file has.

* `Package.outcome_render`: the steps of rendering.
* `Package.LaidOut`: the paths of a package.
* `Package.layout_render`: packages are laid out so, and what is refused.
-/

set_option autoImplicit false

namespace TypedClient.Package

variable {d : Document} {es : List Endpoint} {settings : Settings} {files : List GeneratedFile}

/-- The paths of a package, given that of its transport module. -/
def packagePaths (transport : Option String) : List String :=
  [typesFile, clientFile] ++ transport.toList ++
    [indexFile, manifestFile, compilerSettingsFile, readmeFile]

/-- A path of a package is that of its transport module or one of the fixed ones. -/
theorem mem_packagePaths_iff {transport : Option String} {path : String} :
    path ∈ packagePaths transport ↔ path ∈ transport ∨ path ∈ packagePaths none := by
  simp only [packagePaths, List.mem_append, Option.mem_toList]
  tauto

/-- The specifier by which the index imports the transport. -/
def transportImport (settings : Settings) : Option String → Except Failure String
  | none => .ok settings.httpClientImport
  | some path => importOf indexFile path

/-- The files of a package, given its client and its types, its transport module, and the
specifier by which the index imports the transport. -/
def packageFiles (d : Document) (settings : Settings) (made : ClientContext × TypesContext)
    (transport : Option String) (specifier : String) : List GeneratedFile :=
  let summary : Summary := {
    title := d.title
    version := d.version
    packageName := settings.packageName
    methodCount := made.1.methods.length
    typeCount := made.2.declarations.length }
  [⟨typesFile, typesText made.2⟩, ⟨clientFile, clientText made.1⟩] ++
    transport.toList.map (⟨·, transportText⟩) ++
    [⟨indexFile, indexText "./types" "./api-client" specifier transport.isSome⟩,
      ⟨manifestFile, manifestText summary⟩,
      ⟨compilerSettingsFile, compilerSettingsText⟩,
      ⟨readmeFile, readmeText summary⟩]

/-- The files of a package have its paths, whatever their texts are. -/
theorem path_packageFiles (d : Document) (settings : Settings)
    (made : ClientContext × TypesContext) (transport : Option String) (specifier : String) :
    (packageFiles d settings made transport specifier).map GeneratedFile.path
      = packagePaths transport := by
  simp [packageFiles, packagePaths, Function.comp_def]

/-- Rendering is to place the transport, to make the contexts, to import the transport, and to
check the paths. -/
theorem outcome_render (d : Document) (es : List Endpoint) (settings : Settings) :
    (render d es settings).outcome = (do
      let transport ← transportFile? settings.httpClientImport
      let made ← ((Builder.contexts es settings.httpClientImport "./types").run
        (Builder.ofDocument d)).2.outcome
      let specifier ← transportImport settings transport
      distinct (packageFiles d settings made transport specifier)) := by
  have htypes : importOf clientFile typesFile = .ok "./types" := by decide +kernel
  have hindexTypes : importOf indexFile typesFile = .ok "./types" := by decide +kernel
  have hindexClient : importOf indexFile clientFile = .ok "./api-client" := by decide +kernel
  -- The specifiers between the files that are always there never fail.
  unfold render
  rw [Logged.outcome_bind, Logged.outcome_ofExcept, htypes, hindexTypes, hindexClient]
  refine congrArg _ (funext fun transport => ?_)
  cases transport with
  | none =>
    simp only [Option.isNone_none, ↓reduceIte, Logged.outcome_bind, Logged.outcome_ofExcept,
      Logged.outcome_note]
    rfl
  | some path =>
    simp only [Option.isNone_some, Bool.false_eq_true, ↓reduceIte, Logged.outcome_bind,
      Logged.outcome_ofExcept, Logged.outcome_note]
    rfl

/-! ### Distinct paths -/

/-- The search for a path that was seen before comes to nothing exactly if the paths are distinct
and new. What has been seen grows by every path that is passed. -/
theorem repeatedPath?_eq_none_iff (paths : List String) : ∀ {seen : List String},
    repeatedPath? seen paths = none ↔ paths.Nodup ∧ ∀ p ∈ paths, p ∉ seen := by
  induction paths with
  | nil => simp [repeatedPath?]
  | cons p rest ih =>
    intro seen
    rw [repeatedPath?, List.nodup_cons, List.forall_mem_cons]
    by_cases hp : p ∈ seen
    · simp [hp]
    · simp only [List.contains_iff_mem, hp, ↓reduceIte, ih, List.mem_cons, not_or,
        not_false_eq_true, true_and]
      constructor
      · rintro ⟨hnodup, hrest⟩
        exact ⟨⟨fun hmem => (hrest p hmem).1 rfl, hnodup⟩, fun q hq => (hrest q hq).2⟩
      · rintro ⟨⟨hmem, hnodup⟩, hrest⟩
        refine ⟨hnodup, fun q hq => ⟨?_, hrest q hq⟩⟩
        rintro rfl
        exact hmem hq

/-- Files are refused exactly if two of them have one path. -/
theorem distinct_eq (files : List GeneratedFile) :
    (distinct files = .ok files ∧ (files.map GeneratedFile.path).Nodup) ∨
      ∃ p, distinct files = .error (.generation (.pathTwice p)) ∧
        ¬ (files.map GeneratedFile.path).Nodup := by
  have hnone : repeatedPath? [] (files.map GeneratedFile.path) = none ↔ _ :=
    repeatedPath?_eq_none_iff _
  unfold distinct
  cases h : repeatedPath? [] (files.map GeneratedFile.path) with
  | none => exact .inl ⟨rfl, (hnone.mp h).1⟩
  | some p =>
    refine .inr ⟨p, rfl, fun hnodup => ?_⟩
    rw [hnone.mpr ⟨hnodup, fun _ _ => List.not_mem_nil⟩] at h
    cases h

/-- Two files under one path are the only reason for which files are refused. -/
theorem distinct_refused_iff (files : List GeneratedFile) :
    (∃ e, distinct files = .error (.generation e)) ↔
      ¬ (files.map GeneratedFile.path).Nodup := by
  rcases distinct_eq files with ⟨hok, hnodup⟩ | ⟨p, hrefused, hnodup⟩
  · refine iff_of_false ?_ (not_not_intro hnodup)
    rintro ⟨e, he⟩
    rw [hok] at he
    cases he
  · exact iff_of_true ⟨_, hrefused⟩ hnodup

/-- A transport module under the source directory has a path of its own unless it is one of
the other source files. -/
theorem nodup_packagePaths_iff {path : String} (h : Text.hasLead sourceLead path = true) :
    (packagePaths (some path)).Nodup ↔ path ∉ [typesFile, clientFile, indexFile] := by
  have hperm : ([typesFile, clientFile] ++ path ::
      [indexFile, manifestFile, compilerSettingsFile, readmeFile]).Perm
        (path :: packagePaths none) := List.perm_middle
  -- The files beside the source directory have no path like it.
  have hrest : path ∉ [manifestFile, compilerSettingsFile, readmeFile] := by
    intro hmem
    have hlead : ∀ p ∈ [manifestFile, compilerSettingsFile, readmeFile],
        Text.hasLead sourceLead p = false := by decide
    rw [hlead path hmem] at h
    cases h
  have hmem : path ∈ packagePaths none ↔
      path ∈ [typesFile, clientFile, indexFile] ∨
        path ∈ [manifestFile, compilerSettingsFile, readmeFile] := by
    rw [← List.mem_append]
    rfl
  show ([typesFile, clientFile] ++
    [path, indexFile, manifestFile, compilerSettingsFile, readmeFile]).Nodup ↔ _
  rw [hperm.nodup_iff, List.nodup_cons, hmem, or_iff_left hrest]
  exact and_iff_left (by decide)

/-! ### The layout -/

/-- Where the transport module goes: outside the source directory it is refused, and otherwise it
goes where its specifier leads, which is nowhere for the name of a package. -/
theorem transportFile?_eq (httpClientImport : String) :
    (∃ path, ModulePath.localModule? clientFile httpClientImport = some path ∧
        Text.hasLead sourceLead path = false ∧ transportFile? httpClientImport
          = .error (.generation (.transportOutside httpClientImport path))) ∨
      (∀ path ∈ ModulePath.localModule? clientFile httpClientImport,
          Text.hasLead sourceLead path = true) ∧
        transportFile? httpClientImport
          = .ok (ModulePath.localModule? clientFile httpClientImport) := by
  unfold transportFile?
  cases ModulePath.localModule? clientFile httpClientImport with
  | none => exact .inr ⟨by simp, rfl⟩
  | some path =>
    cases hlead : Text.hasLead sourceLead path with
    | false => exact .inl ⟨path, rfl, hlead, by simp [hlead]⟩
    | true => exact .inr ⟨by simpa using hlead, by simp [hlead]⟩

/-- Where the files of a package go. -/
structure LaidOut (settings : Settings) (files : List GeneratedFile) : Prop where
  paths : files.map GeneratedFile.path = [typesFile, clientFile] ++
    (ModulePath.localModule? clientFile settings.httpClientImport).toList ++
      [indexFile, manifestFile, compilerSettingsFile, readmeFile]
  nodup : (files.map GeneratedFile.path).Nodup
  segments : ∀ f ∈ files, ∀ s ∈ splitSlashes f.path, s ≠ "" ∧ s ≠ "." ∧ s ≠ ".."
  /-- The transport module is a source file. -/
  source : ∀ path ∈ ModulePath.localModule? clientFile settings.httpClientImport,
    ∃ rest, path = sourceLead ++ rest
  /-- A file is as many steps below the output directory as its path has segments. -/
  below : ∀ f ∈ files, ∀ w, (FileSink.target settings.outputDirectory f).place w
    = settings.outputDirectory.place w ++ splitSlashes f.path

/-- The segments of all paths stand for themselves. -/
theorem ordinary_packagePaths (httpClientImport : String) :
    ∀ path ∈ packagePaths (ModulePath.localModule? clientFile httpClientImport),
      ∀ s ∈ splitSlashes path, ModulePath.Ordinary s := by
  have hothers : ∀ path ∈ packagePaths none, ∀ s ∈ splitSlashes path, ModulePath.Ordinary s := by
    decide +kernel
  intro path hpath
  rcases mem_packagePaths_iff.mp hpath with htransport | hother
  · have hsource : ∀ s ∈ ModulePath.directory clientFile, '/' ∉ s.toList := by decide +kernel
    obtain ⟨-, -, -, -, hordinary⟩ := ModulePath.of_localModule?_eq_some hsource htransport
    exact hordinary
  · exact hothers path hother

/-- The names of a target are those of the directory and the segments of the path. -/
theorem target_eq {f : GeneratedFile} (h : ∀ s ∈ splitSlashes f.path, s ≠ "" ∧ s ≠ "." ∧ s ≠ "..")
    (directory : Path) : FileSink.target directory f
      = ⟨directory.root, directory.names ++ splitSlashes f.path⟩ := by
  rw [FileSink.target, Path.append, Path.filter_isName h]

/-- A target is as many steps below the output directory as its path has segments, none of which
leads elsewhere. -/
theorem place_target {directory : Path} {f : GeneratedFile}
    (h : ∀ s ∈ splitSlashes f.path, ModulePath.Ordinary s) (w : Place) :
    (FileSink.target directory f).place w = directory.place w ++ splitSlashes f.path := by
  rw [target_eq (fun s hs => (h s hs).ne), Path.place, Path.place, ← List.append_assoc]
  rfl

/-- Files that were rendered are laid out: nothing but the check for distinct paths is done after
they are put together. -/
theorem laidOut_of_render (h : (render d es settings).outcome = .ok files) :
    LaidOut settings files := by
  rw [outcome_render] at h
  obtain ⟨transport, htransport, h⟩ := bind_eq_ok_iff.mp h
  obtain ⟨made, -, h⟩ := bind_eq_ok_iff.mp h
  obtain ⟨specifier, -, h⟩ := bind_eq_ok_iff.mp h
  -- The transport is placed, and then the files are what was put together.
  rcases transportFile?_eq settings.httpClientImport with ⟨_, -, -, hrefused⟩ | ⟨hlead, hplaced⟩
  · rw [hrefused] at htransport
    cases htransport
  rw [hplaced] at htransport
  cases htransport
  rcases distinct_eq (packageFiles d settings made _ specifier) with
    ⟨hdistinct, hnodup⟩ | ⟨_, hrefused, -⟩
  · rw [hdistinct] at h
    cases h
    have hpaths := path_packageFiles d settings made
      (ModulePath.localModule? clientFile settings.httpClientImport) specifier
    have hordinary : ∀ f ∈ packageFiles d settings made _ specifier,
        ∀ s ∈ splitSlashes f.path, ModulePath.Ordinary s := fun f hf =>
      ordinary_packagePaths settings.httpClientImport f.path
        (hpaths ▸ List.mem_map_of_mem hf)
    exact {
      paths := hpaths
      nodup := hnodup
      segments := fun f hf s hs => (hordinary f hf s hs).ne
      source := fun path hpath => Text.hasLead_iff.mp (hlead path hpath)
      below := fun f hf => place_target (hordinary f hf) }
  · rw [hrefused] at h
    cases h

/-- The contexts of a document can be made, and the index can import the transport. -/
structure Renderable (d : Document) (es : List Endpoint) (settings : Settings) : Prop where
  contexts : ∃ made b, (Builder.contexts es settings.httpClientImport "./types").Gives
    (Builder.ofDocument d) made b
  transport : ∀ path, ModulePath.localModule? clientFile settings.httpClientImport = some path →
    Text.hasLead sourceLead path = true → ∃ specifier, importOf indexFile path = .ok specifier

/-- Rendering what can be rendered is refused exactly for the transport module: for lying outside
the source directory, or for the path of another source file. -/
theorem refused_iff (h : Renderable d es settings) :
    (∃ e, (render d es settings).outcome = .error (.generation e)) ↔
      ∃ path, ModulePath.localModule? clientFile settings.httpClientImport = some path ∧
        (Text.hasLead sourceLead path = false ∨ path ∈ [typesFile, clientFile, indexFile]) := by
  obtain ⟨made, b, hmade, -⟩ := h.contexts
  rw [outcome_render]
  rcases transportFile?_eq settings.httpClientImport with
    ⟨path, hlocal, houtside, hrefused⟩ | ⟨hlead, hplaced⟩
  · rw [hrefused]
    exact iff_of_true ⟨_, rfl⟩ ⟨path, hlocal, .inl houtside⟩
  · obtain ⟨specifier, hspecifier⟩ : ∃ specifier, transportImport settings
        (ModulePath.localModule? clientFile settings.httpClientImport) = .ok specifier := by
      cases hlocal : ModulePath.localModule? clientFile settings.httpClientImport with
      | none => exact ⟨_, rfl⟩
      | some path => exact h.transport path hlocal (hlead path hlocal)
    rw [hplaced, hmade]
    show (∃ e, (transportImport settings _ >>= _) = _) ↔ _
    rw [hspecifier]
    show (∃ e, distinct (packageFiles d settings made _ specifier) = .error (.generation e)) ↔ _
    rw [distinct_refused_iff, path_packageFiles]
    -- The fixed files never have one path among themselves.
    cases hlocal : ModulePath.localModule? clientFile settings.httpClientImport with
    | none =>
      have hnodup : (packagePaths none).Nodup := by decide
      simp [hnodup]
    | some path =>
      have hunder := hlead path hlocal
      rw [nodup_packagePaths_iff hunder, not_not]
      simp [hunder]

/-- A package that is rendered has its files in one order, under distinct paths that do not
leave the output directory, and the transport module is among the source files. Nothing else
is refused than a transport module that is no source file or has the path of another one. A
specifier that leads out of the package altogether denotes no module of it, and is left to
whoever installs the package. -/
theorem layout_render (d : Document) (es : List Endpoint) (settings : Settings) :
    (∀ files, (render d es settings).outcome = .ok files → LaidOut settings files) ∧
    (Renderable d es settings →
      ((∃ e, (render d es settings).outcome = .error (.generation e)) ↔
        ∃ path, ModulePath.localModule? clientFile settings.httpClientImport = some path ∧
          (Text.hasLead sourceLead path = false ∨ path ∈ [typesFile, clientFile, indexFile]))) :=
  ⟨fun _ h => laidOut_of_render h, refused_iff⟩

/-- Settings with a transport module. -/
def transportSettings (httpClientImport : String) : Settings :=
  ⟨Path.ofString "out", defaultPackageName, httpClientImport⟩

/-- A specifier may take detours that lead back to the source directory, but not to a file
that is there already. -/
theorem layout_render_detour :
    (∃ files,
      (render default [] (transportSettings "./lib/../net//./http.js")).outcome = .ok files ∧
      LaidOut (transportSettings "./lib/../net//./http.js") files ∧
      files.map GeneratedFile.path = ["src/types.ts", "src/api-client.ts", "src/net/http.ts",
        "src/index.ts", "package.json", "tsconfig.json", "README.md"]) ∧
    Renderable default [] (transportSettings "../src/types") ∧
      ∃ e, (render default [] (transportSettings "../src/types")).outcome
        = .error (.generation e) := by
  have hok : (render default [] (transportSettings "./lib/../net//./http.js")).outcome.isOk
      = true := by
    decide +kernel
  have hdetour : ModulePath.localModule? clientFile
      (transportSettings "./lib/../net//./http.js").httpClientImport
        = some "src/net/http.ts" := by
    decide +kernel
  have hclash : ModulePath.localModule? clientFile "../src/types" = some typesFile := by
    decide +kernel
  have hmade : ((Builder.contexts [] "../src/types" "./types").run
      (Builder.ofDocument default)).2.outcome.isOk = true := by
    decide +kernel
  have himport : importOf indexFile typesFile = .ok "./types" := by decide +kernel
  obtain ⟨files, hfiles⟩ := exists_of_isOk hok
  obtain ⟨made, hmade⟩ := exists_of_isOk hmade
  have hlaid := (layout_render default [] (transportSettings "./lib/../net//./http.js")).1 files
    hfiles
  have hrenderable : Renderable default [] (transportSettings "../src/types") := {
    contexts := ⟨made, _, hmade, rfl⟩
    transport := fun path hpath _ => by
      obtain rfl : typesFile = path := Option.some.inj (hclash.symm.trans hpath)
      exact ⟨_, himport⟩ }
  refine ⟨⟨files, hfiles, hlaid, ?_⟩, hrenderable, ?_⟩
  · rw [hlaid.paths, hdetour]
    rfl
  · exact ((layout_render default [] (transportSettings "../src/types")).2 hrenderable).mpr
      ⟨typesFile, hclash, .inr List.mem_cons_self⟩

end TypedClient.Package
