import TypedClient.Path
import TypedClient.Text.Lead

/-!
# `TypedClient.Package.ModulePath`: modules of a package and how they import each other

Paths of modules are compared after their `.` and `..` segments have been collapsed, which
is done on the text alone. A module imports another one by a path relative to its own
directory, without the suffix.

* `normalize`: the collapsed segments.
* `relativeImport?`: the specifier by which one file imports another.
* `localModule?`: the file that a relative specifier denotes.
-/

set_option autoImplicit false

namespace TypedClient.ModulePath

/-- A segment that stays where it is. -/
def isVoid (segment : String) : Bool := segment = "" || segment = "." || segment = "/"

/-- The collapsed segments, `stack` being those before in reverse. A `..` takes back the
segment before it, unless that is a `..` itself or there is none. -/
def normalizeFrom : (stack : List String) → List String → List String
  | stack, [] => stack.reverse
  | stack, segment :: rest =>
    if isVoid segment then normalizeFrom stack rest
    else if segment = ".." then
      match stack with
      | [] => normalizeFrom [".."] rest
      | top :: below =>
        if top = ".." then normalizeFrom (".." :: stack) rest else normalizeFrom below rest
    else normalizeFrom (segment :: stack) rest

/-- The segments without `.` and without the `..` that can be resolved. -/
def normalize (segments : List String) : List String := normalizeFrom [] segments

/-- The segments of the directory that a file lies in. -/
def directory (file : String) : List String := (Path.ofString file).parent.parts

/-- The collapsed segments of a module: those of its file without the suffix. -/
def segments? (file : String) : Option (List String) :=
  let path := Path.ofString file
  (path.withName? path.stem).map fun p => normalize p.parts

/-- The number of segments that a directory and a module share, the name of the module
not being one of them. -/
def commonLength : List String → List String → Nat
  | d :: ds, m :: n :: ms => if d = m then commonLength ds (n :: ms) + 1 else 0
  | _, _ => 0

/-- The segments from a directory to a module. -/
def relative (directory module : List String) : List String :=
  let common := commonLength directory module
  List.replicate (directory.length - common) ".." ++ module.drop common

/-- The specifier by which one file imports another. A file without a name that could
stand for a module has none. -/
def relativeImport? (source target : String) : Option String :=
  (segments? target).map fun module =>
    let specifier := "/".intercalate (relative (normalize (directory source)) module)
    if Text.hasLead ".." specifier then specifier else "./" ++ specifier

/-- The suffixes of files that a specifier may spell out. -/
def moduleSuffixes : List String := [".ts", ".js"]

/-- A segment without the suffix of a module. -/
def withoutSuffix (segment : String) : String :=
  let path := Path.ofString segment
  if moduleSuffixes.contains path.suffix then path.stem else segment

/-- The specifier is relative. -/
def isRelative (specifier : String) : Bool :=
  Text.hasLead "./" specifier || Text.hasLead "../" specifier

/-- The file that a relative specifier in a file denotes. There is none for packages and
for modules outside of the package. -/
def localModule? (source specifier : String) : Option String :=
  if isRelative specifier then
    match normalize (directory source ++ splitSlashes specifier) with
    | [] => none
    | first :: rest =>
      if first = ".." then none
      else
        let segments := first :: rest
        let last := withoutSuffix (segments.getLast?.getD "")
        some ("/".intercalate (segments.dropLast ++ [last]) ++ ".ts")
  else none

end TypedClient.ModulePath
