import TypedClient.Assoc
import TypedClient.FileTree.Error
import TypedClient.Path

/-!
# `TypedClient.FileTree.Basic`: directory trees

A directory tree says what stands at each place, a place being the names on the way from
the top. Operations take paths, find the place that a path leads to, and follow the rules
of POSIX: a replaced name takes its whole subtree along, a directory replaces only an
empty directory, a file only a file, and only files can be unlinked.

An operation that is refused changes nothing. `makeDirectories` is many operations, and
what it made before one is refused stays.

* `find?_put`, `find?_erase`: what stands at a place after an entry is put or erased.
-/

set_option autoImplicit false

namespace TypedClient

/-- What stands at a place. -/
inductive Entry where
  | file (content : ByteArray)
  | directory

/-- The names on the way from the top of the tree. -/
abbrev Place := List String

/-- The files and directories below the top, and the directory that relative paths start
in. -/
structure FileTree where
  entries : List (Place × Entry)
  working : Place

namespace FileTree

/-- What stands at a place. The top is a directory. -/
def find? (t : FileTree) (p : Place) : Option Entry :=
  if p = [] then some .directory else t.entries.lookup p

/-- The tree with an entry at a place. -/
def put (t : FileTree) (p : Place) (e : Entry) : FileTree :=
  { t with entries := Assoc.put t.entries p e }

/-- The tree without what stands at a place. -/
def erase (t : FileTree) (p : Place) : FileTree :=
  { t with entries := t.entries.filter fun e => e.1 ≠ p }

theorem find?_put (t : FileTree) (p q : Place) (e : Entry) (h : q ≠ []) :
    (t.put p e).find? q = if q = p then some e else t.find? q := by
  simp [find?, put, h, Assoc.lookup_put]

theorem find?_erase (t : FileTree) (p q : Place) (h : q ≠ []) :
    (t.erase p).find? q = if q = p then none else t.find? q := by
  simp only [find?, erase, h, ↓reduceIte]
  induction t.entries with
  | nil => simp
  | cons e rest ih =>
    obtain ⟨r, entry⟩ := e
    by_cases hr : r = p
    · subst hr
      by_cases hq : q = r
      · simpa [hq] using ih
      · have hne : (q == r) = false := beq_false_of_ne hq
        simpa [hq, hne, List.lookup_cons] using ih
    · by_cases hq : q = r
      · simp [hr, hq]
      · have hne : (q == r) = false := beq_false_of_ne hq
        simpa [hr, hne, List.lookup_cons] using ih

/-- Something stands below the place. -/
def hasChildren (t : FileTree) (p : Place) : Bool :=
  t.entries.any fun e => p.isPrefixOf e.1 && e.1 ≠ p

/-- The tree with one place, and everything below it, moved to another place. -/
def relocate (t : FileTree) (p q : Place) : FileTree :=
  { t with entries := (t.erase q).entries.map fun e =>
      if p.isPrefixOf e.1 then (q ++ e.1.drop p.length, e.2) else e }

/-- The longest name, in bytes. -/
def maxNameLength : Nat := 255

/-- The longest path, in bytes. -/
def maxPathLength : Nat := 4095

/-- The place of a name in a directory. -/
def enter (t : FileTree) (p : Place) (name : String) : Except FileError Place :=
  match t.find? p with
  | none => .error .missing
  | some (.file _) => .error .notADirectory
  | some .directory =>
    -- The top is its own parent.
    if name = ".." then .ok p.dropLast
    else if maxNameLength < name.utf8ByteSize then .error .nameTooLong
    else .ok (p ++ [name])

/-- The place that a path leads to. Everything on the way has to be a directory; nothing
need stand at the place itself. -/
def locate (t : FileTree) (p : Path) : Except FileError Place :=
  if p.names.any fun n => n.toList.contains '\x00' then .error .nulInPath
  else if maxPathLength < p.text.utf8ByteSize then .error .nameTooLong
  else p.names.foldlM t.enter (if p.root = "" then t.working else [])

/-- What stands at a path. -/
def stat (t : FileTree) (p : Path) : Except FileError Entry := do
  match t.find? (← t.locate p) with
  | some e => pure e
  | none => throw .missing

/-- Something stands at a path. Only a name that is too long keeps the question open. -/
def exists? (t : FileTree) (p : Path) : Except FileError Bool :=
  match t.stat p with
  | .ok _ => .ok true
  | .error .nameTooLong => .error .nameTooLong
  | .error _ => .ok false

def isDirectory (t : FileTree) (p : Path) : Bool :=
  match t.stat p with
  | .ok .directory => true
  | _ => false

/-- The content of a file. -/
def read (t : FileTree) (p : Path) : Except FileError ByteArray := do
  match ← t.stat p with
  | .file content => pure content
  | .directory => throw .isADirectory

/-- Make a directory. -/
def makeDirectory (t : FileTree) (p : Path) : Except FileError FileTree := do
  let place ← t.locate p
  match t.find? place with
  | some _ => throw .present
  | none => pure (t.put place .directory)

/-- The outcome of making a directory that may be there already. -/
def settle (t : FileTree) (p : Path) : Except FileError FileTree → FileTree × Except FileError Unit
  | .ok t => (t, .ok ())
  -- A parent that is missing and a name that no system takes stay errors.
  | .error .missing => (t, .error .missing)
  | .error .nulInPath => (t, .error .nulInPath)
  | .error e => if t.isDirectory p then (t, .ok ()) else (t, .error e)

/-- Make a directory, and the directories above it, out of the last `n` names. -/
def makeDirectoriesWithin : (n : Nat) → FileTree → Path → FileTree × Except FileError Unit
  | 0, t, p => t.settle p (t.makeDirectory p)
  | n + 1, t, p => match t.makeDirectory p with
    | .error .missing => match makeDirectoriesWithin n t p.parent with
      | (t, .ok ()) => t.settle p (t.makeDirectory p)
      | (t, .error e) => (t, .error e)
    | r => t.settle p r

/-- Make a directory and the directories above it, so far as they are missing. -/
def makeDirectories (t : FileTree) (p : Path) : FileTree × Except FileError Unit :=
  makeDirectoriesWithin p.names.length t p

/-- Write a file, replacing the content of a file that is there. -/
def write (t : FileTree) (p : Path) (content : ByteArray) : Except FileError FileTree := do
  let place ← t.locate p
  match t.find? place with
  | some .directory => throw .isADirectory
  | _ => pure (t.put place (.file content))

/-- Remove a file. -/
def unlink (t : FileTree) (p : Path) : Except FileError FileTree := do
  let place ← t.locate p
  match t.find? place with
  | none => throw .missing
  | some .directory => throw .isADirectory
  | some (.file _) => pure (t.erase place)

/-- Remove a file that may be missing. -/
def unlinkIfPresent (t : FileTree) (p : Path) : Except FileError FileTree :=
  match t.unlink p with
  | .error .missing => .ok t
  | r => r

/-- The path ends in a name of its own. -/
def endsInName (p : Path) : Bool := p.name ≠ "" && p.name ≠ ".."

/-- Give what stands at one path the name of another, replacing what stands there. -/
def replace (t : FileTree) (p q : Path) : Except FileError FileTree := do
  let source ← t.locate p
  let target ← t.locate q
  if !endsInName p || !endsInName q then throw .busy
  match t.find? source, t.find? target with
  | none, _ => throw .missing
  | some _, none => pure (t.relocate source target)
  -- A rename of a name to itself does nothing.
  | some (.file _), some (.file _) =>
    pure (if source = target then t else t.relocate source target)
  | some (.file _), some .directory => throw .isADirectory
  | some .directory, some (.file _) => throw .notADirectory
  | some .directory, some .directory =>
    if source = target then pure t
    else if t.hasChildren target then throw .notEmpty
    else pure (t.relocate source target)

end FileTree

end TypedClient
