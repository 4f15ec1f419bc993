import TypedClient.FileTree.Error
import TypedClient.Generation.Stage

/-!
# `TypedClient.Failure`: why a generation run fails

Failures are causes. A reported failure is one that the generator foresees and explains:
a document that cannot be loaded, a schema that cannot be read, stages out of order, files
that cannot be written. Its text is `Report.message`. Every other cause is a defect: the
run breaks off where it stands, and nothing explains it.
-/

set_option autoImplicit false

namespace TypedClient

/-- Why no document could be loaded. -/
inductive LoadError where
  | unreadable (path : String)
  | malformed (path : String)
  | noMapping (path : String)
  | documentNotMapping
deriving DecidableEq

/-- Why a schema node has no reading. -/
inductive SchemaError where
  /-- The node contains itself. -/
  | selfContaining
  /-- The node carries more than one variant tag; it is shown as text. -/
  | ambiguous (tags : List String) (node : String)
deriving DecidableEq

/-- Why a run cannot go on. -/
inductive GenerationError where
  | loadWhile (stage : Stage)
  | extractWhile (stage : Stage)
  | renderWhile (stage : Stage)
  | writeWhile (stage : Stage)
  | runWhile (stage : Stage)
  | enterWhile (target stage expected : Stage)
  | pathTwice (path : String)
  | transportOutside (specifier path : String)
deriving DecidableEq

/-- Why the generated files could not be written. -/
inductive WriteError where
  | staging (path : String)
  | moving (target : String)
  /-- The sink gives a reason of its own. -/
  | refused (reason : String)
deriving DecidableEq

/-- A failure that the generator explains. -/
inductive Report where
  | load (e : LoadError)
  | schema (e : SchemaError)
  | generation (e : GenerationError)
  | write (e : WriteError)
deriving DecidableEq

/-- A cause that the generator does not foresee. -/
inductive Defect where
  /-- A key is looked up in a value that is no mapping. -/
  | lookupInNonMapping
  /-- Text that is to be a number is none. -/
  | malformedNumber
  /-- Text that is to be a number is empty. -/
  | emptyNumber
  /-- An integer has more digits than are read or written. -/
  | integerTooLong
  /-- A number is beyond the range of its type. -/
  | numberTooLarge
  /-- A text marked as a truth value names none. -/
  | unknownTruthValue
  /-- A text marked as a timestamp has not the form of one. -/
  | malformedTimestamp
  /-- A value that is to be text when a timestamp is read from it is none. -/
  | timestampNotText
  /-- The calendar has no such date, time or offset. -/
  | impossibleDate
  /-- An escape names a code that no character has. -/
  | noSuchCharacter
  /-- A search follows aliases and never ends. -/
  | endlessRecursion
  /-- A path has no last name that could be replaced. -/
  | noFileName
  /-- A table that is keyed by text has another key. -/
  | keyNotText
  /-- A setting that is to be text is none. -/
  | settingNotText
  /-- The file system refuses outside of the guarded steps. -/
  | file (e : FileError)
deriving DecidableEq

/-- Why a run fails. -/
inductive Failure where
  | reported (report : Report)
  | defect (defect : Defect)
deriving DecidableEq

def LoadError.message : LoadError → String
  | unreadable path => "Cannot read " ++ path
  | malformed path => "Cannot parse " ++ path
  | noMapping path => path ++ " does not contain a mapping at the top level"
  | documentNotMapping => "Spec document must be a mapping"

def SchemaError.message : SchemaError → String
  | selfContaining => "Schema node contains itself (recursive YAML alias); use $ref instead"
  | ambiguous tags node =>
    "Ambiguous schema node (" ++ " + ".intercalate tags ++ "): " ++ node

def GenerationError.message : GenerationError → String
  | loadWhile stage => "Cannot load a spec while " ++ stage.name
  | extractWhile stage => "Cannot extract endpoints while " ++ stage.name
  | renderWhile stage => "Cannot render files while " ++ stage.name
  | writeWhile stage => "Cannot write files while " ++ stage.name
  | runWhile stage => "A run is already in progress (" ++ stage.name ++ ")"
  | enterWhile target stage expected =>
    "Cannot enter " ++ target.name ++ ": generator is " ++ stage.name ++ ", expected " ++
      expected.name
  | pathTwice path => "Output path emitted twice: " ++ path
  | transportOutside specifier path =>
    "HTTP client module " ++ specifier ++ " resolves to " ++ path ++
      ", outside src/; use a path under src/ or a package name"

def WriteError.message : WriteError → String
  | staging path => "Failed to write " ++ path
  | moving target => "Failed to move " ++ target ++ " into place"
  | refused reason => reason

/-- The text that explains a reported failure. -/
def Report.message : Report → String
  | load e => e.message
  | schema e => e.message
  | generation e => e.message
  | write e => e.message

namespace Failure

def load (e : LoadError) : Failure := .reported (.load e)

def schema (e : SchemaError) : Failure := .reported (.schema e)

def generation (e : GenerationError) : Failure := .reported (.generation e)

def write (e : WriteError) : Failure := .reported (.write e)

end Failure

end TypedClient
