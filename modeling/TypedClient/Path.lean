/-!
# `TypedClient.Path`: paths with slashes

A path is a root and the names after it. Empty names and `.` vanish when a path is read;
`..` stays, for what it means depends on the directories there are. Two leading slashes
are a root of their own, any other number of them is one.

The suffix of a name starts at its last dot, unless that dot begins or ends the name.
-/

set_option autoImplicit false

namespace TypedClient

/-- A path: a root, which is empty for relative paths, and names. -/
structure Path where
  root : String
  names : List String
deriving DecidableEq, Inhabited

/-- The parts of a text between occurrences of a character. -/
def splitOnChar (sep : Char) : List Char → List (List Char)
  | [] => [[]]
  | c :: rest =>
    if c = sep then [] :: splitOnChar sep rest
    else match splitOnChar sep rest with
      | [] => [[c]]
      | part :: parts => (c :: part) :: parts

/-- The parts of a text between slashes. -/
def splitSlashes (s : String) : List String :=
  (splitOnChar '/' s.toList).map String.ofList

namespace Path

/-- The name takes part in a path. -/
def isName (s : String) : Bool := s ≠ "" && s ≠ "."

/-- The path that a text denotes. -/
def ofString (s : String) : Path :=
  let slashes := (s.toList.takeWhile (· = '/')).length
  let root := if slashes = 0 then "" else if slashes = 2 then "//" else "/"
  ⟨root, (splitSlashes s).filter isName⟩

/-- The path as text; the empty relative path is a dot. -/
def text (p : Path) : String :=
  let t := p.root ++ "/".intercalate p.names
  if t = "" then "." else t

/-- The root, if there is one, and the names. -/
def parts (p : Path) : List String :=
  if p.root = "" then p.names else p.root :: p.names

/-- The last name, empty if there is none. -/
def name (p : Path) : String := p.names.getLast?.getD ""

/-- The path without its last name. -/
def parent (p : Path) : Path := { p with names := p.names.dropLast }

/-- Another path, seen from this one. -/
def join (p q : Path) : Path :=
  if q.root = "" then { p with names := p.names ++ q.names } else q

/-- The path with names appended; empty ones and `.` vanish. -/
def append (p : Path) (names : List String) : Path :=
  { p with names := p.names ++ names.filter isName }

/-- A name cut at the dot that starts its suffix. -/
def splitSuffix (name : List Char) : List Char × List Char :=
  let tail := (name.reverse.takeWhile (· ≠ '.')).length
  let dot := name.length - tail - 1
  if 0 < tail && tail + 1 < name.length then (name.take dot, name.drop dot) else (name, [])

/-- The suffix of the last name, with its dot. -/
def suffix (p : Path) : String := String.ofList (splitSuffix p.name.toList).2

/-- The last name without its suffix. -/
def stem (p : Path) : String := String.ofList (splitSuffix p.name.toList).1

/-- The path with another last name. There is none if the path has no last name, or if the
new one is no name or holds a slash. -/
def withName? (p : Path) (name : String) : Option Path :=
  if p.names.isEmpty || !isName name || name.toList.contains '/' then none
  else some { p with names := p.names.dropLast ++ [name] }

end Path

end TypedClient
