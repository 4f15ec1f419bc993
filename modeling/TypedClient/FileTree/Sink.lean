import TypedClient.FileTree.Basic
import TypedClient.Log

/-!
# `TypedClient.FileTree.Sink`: writing the generated files

Every file is first written next to its destination under a staging name. When all of
them are staged they are renamed into place one after the other; a file that is replaced
is moved aside first, to a backup name, and removed at the end. If a rename is refused
the files moved so far are put back in reverse and what is staged is removed.

An operation can be made to fail at any point by `Faults`, whether or not the tree would
refuse it.
-/

set_option autoImplicit false

namespace TypedClient

/-- A generated file: a path below the output directory and a text. -/
structure GeneratedFile where
  path : String
  content : String
deriving DecidableEq, Inhabited

/-- What takes the generated files. -/
abbrev Sink (σ : Type) := σ → List GeneratedFile → σ × Logged Unit

/-- How the device fails while a file is staged. -/
inductive StagingFault where
  /-- The directories cannot be made. -/
  | directories
  /-- The file cannot be written. It may have been created with a part of its content. -/
  | file (left : Option ByteArray)

/-- The points at which the device fails, files being numbered from zero. -/
structure Faults where
  staging : Nat → Option StagingFault
  /-- Moving the file aside that stands at the target. -/
  aside : Nat → Bool
  /-- Moving the staged file into place. -/
  into : Nat → Bool

/-- The device does not fail. -/
def Faults.none : Faults := ⟨fun _ => .none, fun _ => false, fun _ => false⟩

namespace FileSink

def stagingSuffix : String := ".tsclientgen-tmp"

def backupSuffix : String := ".tsclientgen-bak"

/-- The path where a file goes. -/
def target (directory : Path) (file : GeneratedFile) : Path :=
  directory.append (splitSlashes file.path)

/-- The path with a suffix added to its last name. -/
def withSuffix? (p : Path) (suffix : String) : Option Path :=
  p.withName? (p.name ++ suffix)

/-- A file that has been written under its staging name. -/
structure Staged where
  temporary : Path
  target : Path

/-- A target whose file has been moved into place, and the backup of what stood there. -/
structure Moved where
  target : Path
  backup : Option Path

/-- Write a file under its staging name. -/
def writeStaged (t : FileTree) (fault : Option StagingFault) (p : Path) (content : ByteArray) :
    FileTree × Except FileError Unit :=
  match fault with
  | some (.file none) => (t, .error .device)
  | some (.file (some left)) => match t.write p left with
    | .ok t => (t, .error .device)
    | .error e => (t, .error e)
  | _ => match t.write p content with
    | .ok t => (t, .ok ())
    | .error e => (t, .error e)

/-- Stage a file whose paths are known. -/
def stageAt (t : FileTree) (fault : Option StagingFault) (s : Staged) (content : String) :
    FileTree × Except FileError Unit :=
  match fault with
  | some .directories => (t, .error .device)
  | _ => match t.makeDirectories s.target.parent with
    | (t, .error e) => (t, .error e)
    | (t, .ok ()) => writeStaged t fault s.temporary content.toUTF8

/-- Why staging stops. -/
inductive StagingStop where
  /-- The file system refuses a file. -/
  | refused (path : String)
  | defect (d : Defect)

/-- Stage files, the first of which has number `i`. The result holds what is staged, also
when staging stops. -/
def stageAll (faults : Faults) (directory : Path) :
    List GeneratedFile → (i : Nat) → FileTree → FileTree × List Staged × Except StagingStop Unit
  | [], _, t => (t, [], .ok ())
  | f :: rest, i, t =>
    let target := target directory f
    match withSuffix? target stagingSuffix with
    | none => (t, [], .error (.defect .noFileName))
    | some temporary =>
      let s : Staged := ⟨temporary, target⟩
      match stageAt t (faults.staging i) s f.content with
      -- No system takes such a name, so this is no refusal of the file system.
      | (t, .error .nulInPath) => (t, [], .error (.defect (.file .nulInPath)))
      | (t, .error _) => (t, [], .error (.refused f.path))
      | (t, .ok ()) =>
        let (t, staged, r) := stageAll faults directory rest (i + 1) t
        (t, s :: staged, r)

/-- Rename one path to another, unless the device fails. -/
def rename (t : FileTree) (fails : Bool) (p q : Path) : Except FileError FileTree :=
  if fails then .error .device else t.replace p q

/-- Move what stands at a target aside. The result is the tree and the backup. -/
def moveAside (t : FileTree) (fails : Bool) (target : Path) :
    Except FileError (FileTree × Option Path) :=
  match t.exists? target with
  -- Whether something is in the way cannot be told.
  | .error e => .error e
  | .ok false => .ok (t, none)
  | .ok true => match withSuffix? target backupSuffix with
    | none => .error .busy
    | some backup => (rename t fails target backup).map fun t => (t, some backup)

/-- Move staged files into place, the first of which has number `i`. The result holds
what was moved, and the target where a rename was refused, if one was. -/
def moveAll (faults : Faults) :
    List Staged → (i : Nat) → FileTree → FileTree × List Moved × Option Path
  | [], _, t => (t, [], none)
  | s :: rest, i, t =>
    match moveAside t (faults.aside i) s.target with
    | .error _ => (t, [], some s.target)
    | .ok (t, backup) =>
      let m : Moved := ⟨s.target, backup⟩
      match rename t (faults.into i) s.temporary s.target with
      -- The old file is aside already, so this target has to be put back too.
      | .error _ => (t, [m], some s.target)
      | .ok t =>
        let (t, moved, stop) := moveAll faults rest (i + 1) t
        (t, m :: moved, stop)

/-- Put back what one rename replaced, or remove what it created. -/
def restore (t : FileTree) (m : Moved) : Except FileError FileTree :=
  match m.backup with
  | none => t.unlinkIfPresent m.target
  | some backup => t.replace backup m.target

/-- Put back files in the order given, and note where that is refused. -/
def rollback : List Moved → FileTree → FileTree × List Note
  | [], t => (t, [])
  | m :: rest, t => match restore t m with
    | .ok t => rollback rest t
    | .error _ =>
      let (t, notes) := rollback rest t
      (t, ⟨.error, .writing, "Could not restore " ++ m.target.text⟩ :: notes)

/-- Remove files, as far as they are there. -/
def discard : List Path → FileTree → FileTree × Except FileError Unit
  | [], t => (t, .ok ())
  | p :: rest, t => match t.unlinkIfPresent p with
    | .ok t => discard rest t
    | .error e => (t, .error e)

/-- Fail for a reason after removing files; a removal that is refused is the failure. -/
def discardAndFail (files : List Path) (t : FileTree) (notes : List Note) (reason : WriteError) :
    FileTree × Logged (List Path) :=
  match discard files t with
  | (t, .ok ()) => (t, ⟨.error (.write reason), notes⟩)
  | (t, .error e) => (t, ⟨.error (.defect (.file e)), notes⟩)

/-- Write files below a directory. The result names the targets, in order. -/
def writeAll (faults : Faults) (directory : Path) (files : List GeneratedFile) (t : FileTree) :
    FileTree × Logged (List Path) :=
  match stageAll faults directory files 0 t with
  | (t, _, .error (.defect d)) => (t, Logged.fail (.defect d))
  | (t, staged, .error (.refused path)) =>
    discardAndFail (staged.map Staged.temporary) t [] (.staging path)
  | (t, staged, .ok ()) => match moveAll faults staged 0 t with
    | (t, moved, some target) =>
      -- The last rename is undone first, so that each finds the tree it left.
      let (t, notes) := rollback moved.reverse t
      discardAndFail (staged.map Staged.temporary) t notes (.moving target.text)
    -- Everything is in place; the backups are all that is left to remove.
    | (t, moved, none) => match discard (moved.filterMap Moved.backup) t with
      | (t, .error e) => (t, Logged.fail (.defect (.file e)))
      | (t, .ok ()) =>
        (t, ⟨.ok (staged.map Staged.target),
          [⟨.info, .writing, s!"Wrote {staged.length} files to {directory.text}"⟩]⟩)

end FileSink

/-- A sink that writes below a directory of a tree. -/
structure FileSink where
  directory : Path
  tree : FileTree
  /-- The targets of the last call that succeeded. -/
  written : List Path

/-- Hand files to the sink. -/
def FileSink.call (faults : Faults) (s : FileSink) (files : List GeneratedFile) :
    FileSink × Logged Unit :=
  match FileSink.writeAll faults s.directory files s.tree with
  | (tree, ⟨.ok written, notes⟩) => ({ s with tree, written }, ⟨.ok (), notes⟩)
  | (tree, ⟨.error e, notes⟩) => ({ s with tree }, ⟨.error e, notes⟩)

end TypedClient
