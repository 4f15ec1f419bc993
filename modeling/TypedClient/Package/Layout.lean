import TypedClient.FileTree.Sink
import TypedClient.Package.Files
import TypedClient.Package.ModulePath

/-!
# `TypedClient.Package.Layout`: the files of a client package

A package holds its declarations, its client, the transport interface if it is a module
of the package, an index, and three files beside the source directory. The transport has
to lie under the source directory, and no two files may have one path.

* `render`: the files of the package for a document and its endpoints.
-/

set_option autoImplicit false

namespace TypedClient

/-- The settings of a generation run. -/
structure Settings where
  outputDirectory : Path
  packageName : String
  /-- The module that the client imports the transport interface from. -/
  httpClientImport : String
deriving DecidableEq, Inhabited

def defaultPackageName : String := "api-client"

def defaultHttpClientImport : String := "./http-client"

namespace Package

def typesFile : String := "src/types.ts"

def clientFile : String := "src/api-client.ts"

def indexFile : String := "src/index.ts"

def manifestFile : String := "package.json"

def compilerSettingsFile : String := "tsconfig.json"

def readmeFile : String := "README.md"

/-- What the path of every source file starts with. -/
def sourceLead : String := "src/"

/-- The first path that occurs twice among paths. -/
def repeatedPath? : (seen : List String) → List String → Option String
  | _, [] => none
  | seen, p :: rest => if seen.contains p then some p else repeatedPath? (p :: seen) rest

/-- Files with distinct paths. -/
def distinct (files : List GeneratedFile) : Except Failure (List GeneratedFile) :=
  match repeatedPath? [] (files.map GeneratedFile.path) with
  | some p => .error (.generation (.pathTwice p))
  | none => .ok files

/-- The path of the transport module, none if it belongs to another package. -/
def transportFile? (httpClientImport : String) : Except Failure (Option String) :=
  match ModulePath.localModule? clientFile httpClientImport with
  | none => .ok none
  | some path =>
    if Text.hasLead sourceLead path then .ok (some path)
    else .error (.generation (.transportOutside httpClientImport path))

/-- The specifier by which a file of the package imports another one. -/
def importOf (source target : String) : Except Failure String :=
  match ModulePath.relativeImport? source target with
  | some specifier => .ok specifier
  | none => .error (.defect .noFileName)

/-- The files of the package for a document and its endpoints, in the order in which they
are written. -/
def render (document : Document) (endpoints : List Endpoint) (settings : Settings) :
    Logged (List GeneratedFile) := do
  -- A transport out of place is refused before anything is declared or noted.
  let transport ← Logged.ofExcept (transportFile? settings.httpClientImport)
  if transport.isNone then
    Logged.note .info .rendering
      ("Transport " ++ settings.httpClientImport ++ " is external; not emitting it")
  let typesImport ← Logged.ofExcept (importOf clientFile typesFile)
  let contexts : Work Builder (ClientContext × TypesContext) := do
    let client ← Builder.clientContext endpoints settings.httpClientImport typesImport
    -- After the client, so that the records of its methods are declared too.
    let types ← Builder.typesContext
    pure (client, types)
  let (client, types) ← contexts.resultFrom (Builder.ofDocument document)
  let summary : Summary := {
    title := document.title
    version := document.version
    packageName := settings.packageName
    methodCount := client.methods.length
    typeCount := types.declarations.length }
  let indexTypes ← Logged.ofExcept (importOf indexFile typesFile)
  let indexClient ← Logged.ofExcept (importOf indexFile clientFile)
  let indexTransport ← match transport with
    | none => pure settings.httpClientImport
    | some path => Logged.ofExcept (importOf indexFile path)
  let files : List GeneratedFile :=
    [⟨typesFile, typesText types⟩, ⟨clientFile, clientText client⟩] ++
    transport.toList.map (⟨·, transportText⟩) ++
    [⟨indexFile, indexText indexTypes indexClient indexTransport transport.isSome⟩,
     ⟨manifestFile, manifestText summary⟩,
     ⟨compilerSettingsFile, compilerSettingsText⟩,
     ⟨readmeFile, readmeText summary⟩]
  Logged.note .info .rendering
    s!"Rendered {files.length} files ({summary.methodCount} methods, {summary.typeCount} types)"
  -- The transport may have been given the path of another file.
  Logged.ofExcept (distinct files)

end Package

end TypedClient
