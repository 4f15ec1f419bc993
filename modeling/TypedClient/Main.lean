import TypedClient.CommandLine.Command

/-!
# `TypedClient.Main`: the program

The program takes a picture of the files that its arguments and environment name, runs on
it, and writes what has changed.
-/

set_option autoImplicit false

namespace TypedClient.Program

open CommandLine

/-- The variables that hold settings. -/
def settingVariables : List String :=
  ["TSCLIENTGEN_OUTPUT_DIR", "TSCLIENTGEN_PACKAGE_NAME", "TSCLIENTGEN_HTTP_CLIENT_IMPORT"]

/-- The path of a place as text. -/
def placeText (p : Place) : String := "/" ++ "/".intercalate p

/-- What stands at a place and below it. -/
partial def picture (p : Place) : IO (List (Place × Entry)) := do
  let path := (← IO.currentDir) / placeText p
  if ← path.isDir then
    let below ← (← path.readDir).toList.mapM fun e => picture (p ++ [e.fileName])
    pure ((p, .directory) :: below.flatten)
  else if ← path.pathExists then
    pure [(p, .file (← IO.FS.readBinFile path))]
  else pure []

/-- The directories on the way to a place. -/
def directoriesAbove (p : Place) : IO (List (Place × Entry)) := do
  let cwd ← IO.currentDir
  let above := (List.range p.length).filterMap fun k =>
    if 0 < k then some (p.take k) else none
  let there ← above.filterM fun q => (cwd / placeText q).isDir
  pure (there.map (·, .directory))

/-- The place that a path denotes, its `..` collapsed. -/
def placeOf (working : Place) (p : Path) : Place :=
  p.names.foldl (fun place name => if name = ".." then place.dropLast else place ++ [name])
    (if p.root = "" then working else [])

/-- Make the changes from one tree to another. -/
def writeChanges (before after : FileTree) : IO Unit := do
  let cwd ← IO.currentDir
  for (p, e) in before.entries do
    match e, after.find? p with
    | .file _, some (.file _) => pure ()
    | .file _, _ => IO.FS.removeFile (cwd / placeText p)
    | .directory, _ => pure ()
  for (p, e) in after.entries do
    match e with
    | .directory => IO.FS.createDirAll (cwd / placeText p)
    | .file _ => pure ()
  for (p, e) in after.entries do
    match e with
    | .file content =>
      let same := match before.find? p with
        | some (.file old) => old.data == content.data
        | _ => false
      if !same then IO.FS.writeBinFile (cwd / placeText p) content
    | .directory => pure ()

/-- Run the program with arguments, and give its exit code. -/
def run (args : List String) : IO UInt32 := do
  let env ← settingVariables.filterMapM fun name => do
    pure ((← IO.getEnv name).map (name, ·))
  let working := (Path.ofString (← IO.currentDir).toString).names
  let values := args.map (fun a => (splitEquals a).2.getD a) ++ env.map Prod.snd
  let mut entries : List (Place × Entry) := []
  for value in "." :: values do
    let place := placeOf working (Path.ofString value)
    let here ← if value = "." then pure [(place, Entry.directory)] else picture place
    entries := entries ++ (← directoriesAbove place) ++ here
  let before : FileTree := ⟨Assoc.ofList entries, working⟩
  let outputTerminal ← (← IO.getStdout).isTty
  let errorTerminal ← (← IO.getStderr).isTty
  match CommandLine.run args env before with
  | .refused e => do
    IO.eprintln (written errorTerminal ("Error: " ++ e.message))
    pure 2
  | .done verbose effect => do
    for line in effect.outputLines outputTerminal do
      IO.println line
    for line in effect.errorLines verbose errorTerminal do
      IO.eprintln line
    writeChanges before effect.tree
    pure (UInt32.ofNat effect.exitCode)

end TypedClient.Program

/-- The program. -/
def main (args : List String) : IO UInt32 := TypedClient.Program.run args
