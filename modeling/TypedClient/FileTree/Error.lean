/-!
# `TypedClient.FileTree.Error`: why an operation on files is refused
-/

set_option autoImplicit false

namespace TypedClient

/-- Why an operation on a directory tree is refused. -/
inductive FileError where
  /-- Nothing stands at the path, or at a directory on the way to it. -/
  | missing
  /-- Something on the way, or at a place that takes only a directory, is a file. -/
  | notADirectory
  /-- A directory stands where a file is meant. -/
  | isADirectory
  /-- Something stands where a new entry is to be made. -/
  | present
  /-- The directory to be replaced has entries. -/
  | notEmpty
  /-- A name or the whole path is longer than the file system takes. -/
  | nameTooLong
  /-- The path ends in a name that stands for another directory. -/
  | busy
  /-- The device refuses. -/
  | device
  /-- The path holds the character NUL, which no file system takes. -/
  | nulInPath
deriving DecidableEq, Inhabited

end TypedClient
