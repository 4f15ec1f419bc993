import TypedClient.CommandLine.Arguments
import TypedClient.Generation.Run
import TypedClient.Text.Terminal

/-!
# `TypedClient.CommandLine.Command`: the commands

There are two commands: `generate` writes the client package for a document, `endpoints`
lists the methods that it would have. A setting comes from an option, else from an
environment variable that is not empty, else from its default.

A command runs on a directory tree and gives its exit code, what it prints, and the tree
afterwards. It ends with code 2 if its arguments are refused and with code 1 if it fails.

What a command prints may hold texts of a document, and these may hold control sequences
of a terminal. They are left out where there is no terminal to act on them. The log is
written as it is.
-/

set_option autoImplicit false

namespace TypedClient.CommandLine

/-- A command with its arguments. -/
inductive Command where
  | generate (spec : Path) (settings : Settings)
  | endpoints (spec : Path)

/-- Environment variables. -/
abbrev Environment := List (String × String)

/-- A variable that is set and not empty. -/
def setting? (env : Environment) (name : String) : Option String :=
  (env.lookup name).filter (· ≠ "")

/-- The option of the program itself. -/
def programOptions : List OptionSpec := [⟨"--verbose", some 'v', false⟩]

def outputOption : OptionSpec := ⟨"--output", some 'o', true⟩

def packageNameOption : OptionSpec := ⟨"--package-name", none, true⟩

def httpClientImportOption : OptionSpec := ⟨"--http-client-import", none, true⟩

/-- The only operand of a command. -/
def onlyOperand (a : Arguments) : Except UsageError String :=
  match a.operands with
  | [] => .error (.missingOperand "SPEC_PATH")
  | [operand] => .ok operand
  | _ :: extra :: _ => .error (.extraOperand extra)

/-- The path of a document, which may not be a directory. -/
def specPath (tree : FileTree) (operand : String) : Except UsageError Path :=
  let path := Path.ofString operand
  -- An empty operand denotes nothing, though its path is the working directory.
  if operand ≠ "" && tree.isDirectory path then .error (.isADirectory operand) else .ok path

/-- The text can only denote a directory: its last part is empty or a dot. -/
def insistsOnDirectory (value : String) : Bool :=
  (splitSlashes value).getLast?.any (!Path.isName ·)

/-- The path of the output directory, which may not be a file. A text that can only denote
a directory denotes nothing where a file stands. -/
def outputPath (tree : FileTree) (value : String) : Except UsageError Path :=
  let path := Path.ofString value
  match tree.stat path with
  | .ok (.file _) => if insistsOnDirectory value then .ok path else .error (.isAFile value)
  | _ => .ok path

/-- The command that arguments ask for, after the options of the program. -/
def command (env : Environment) (tree : FileTree) (name : String) (args : List String) :
    Except UsageError Command :=
  if name = "generate" then do
    let a ← sort [outputOption, packageNameOption, httpClientImportOption] true args
    let setting := fun (option : OptionSpec) (name : String) =>
      (a.value? option.long).or (setting? env name)
    let spec ← onlyOperand a
    let some output := setting outputOption "TSCLIENTGEN_OUTPUT_DIR"
      | throw (.missingOption outputOption.long)
    let packageName := setting packageNameOption "TSCLIENTGEN_PACKAGE_NAME"
    let httpClientImport := setting httpClientImportOption "TSCLIENTGEN_HTTP_CLIENT_IMPORT"
    pure (.generate (← specPath tree spec)
      ⟨← outputPath tree output, packageName.getD defaultPackageName,
       httpClientImport.getD defaultHttpClientImport⟩)
  else if name = "endpoints" then do
    let a ← sort [] true args
    pure (.endpoints (← specPath tree (← onlyOperand a)))
  else .error (.unknownCommand name)

/-- What a command does: its exit code, the lines it prints, the notes it logs, and the
tree that it leaves. -/
structure Effect where
  exitCode : Nat
  output : List String
  notes : List Note
  /-- The failure that ended the command. -/
  failure : Option Failure
  tree : FileTree

/-- List the methods that a document would have. -/
def listEndpoints (spec : Path) (tree : FileTree) : Effect :=
  let found : Logged (List Endpoint) := do
    let document ← Logged.ofExcept (loadDocument Yaml.read spec (tree.read spec))
    document.endpoints
  match found with
  | ⟨.error f, notes⟩ => ⟨1, [], notes, some f, tree⟩
  | ⟨.ok endpoints, notes⟩ =>
    let choices := Name.choices (endpoints.map Endpoint.toRoute)
    let line := fun (c : Name.Choice) =>
      c.route.method ++ String.ofList (List.replicate (7 - c.route.method.length) ' ') ++ " " ++
        c.route.path ++ " -> " ++ c.given
    ⟨0, choices.map line ++ [s!"{endpoints.length} endpoints."],
      notes ++ choices.flatMap Name.Choice.notes, none, tree⟩

/-- Write the client package for a document. -/
def generatePackage (spec : Path) (settings : Settings) (tree : FileTree) : Effect :=
  let sink : FileSink := ⟨settings.outputDirectory, tree, []⟩
  let (_, sink, files) := Progress.run settings (FileSink.call Faults.none) .idle
    (.file spec (tree.read spec)) sink
  let output := settings.outputDirectory
  let first := "Generating " ++ settings.packageName ++ " from " ++ spec.text ++ "..."
  match files with
  | ⟨.error f, notes⟩ => ⟨1, [first], notes, some f, sink.tree⟩
  | ⟨.ok files, notes⟩ =>
    ⟨0, [first] ++
      files.map (fun f => "  Created " ++ (output.join (Path.ofString f.path)).text) ++ [
      s!"Generated {files.length} files in {output.text}",
      "Next steps:",
      "  1. Provide an HttpClient implementation to ApiClient",
      "  2. Run `npm install && npm run build` in " ++ output.text],
      notes, none, sink.tree⟩

/-- Carry out a command. -/
def Command.perform : Command → FileTree → Effect
  | generate spec settings, tree => generatePackage spec settings tree
  | endpoints spec, tree => listEndpoints spec tree

/-- What running the program gives. -/
inductive Outcome where
  | refused (e : UsageError)
  | done (verbose : Bool) (effect : Effect)

/-- Run the program. -/
def run (args : List String) (env : Environment) (tree : FileTree) : Outcome :=
  let parsed : Except UsageError (Bool × Command) := do
    let a ← sort programOptions false args
    match a.operands with
    | [] => throw .missingCommand
    | name :: rest => pure ((a.value? "--verbose").isSome, ← command env tree name rest)
  match parsed with
  | .error e => .refused e
  | .ok (verbose, command) => .done verbose (command.perform tree)

/-- A printed line as it is written to a terminal, or to what is none. -/
def written (terminal : Bool) (line : String) : String :=
  if terminal then line else Text.visible line

/-- The lines that go to the output. -/
def Effect.outputLines (terminal : Bool) (e : Effect) : List String :=
  e.output.map (written terminal)

/-- The lines that go to the error output: the log, all of it or the warnings and errors,
and the failure if it is one that is explained. -/
def Effect.errorLines (verbose terminal : Bool) (e : Effect) : List String :=
  (e.notes.filter fun n => verbose || n.level = .warning || n.level = .error).map Note.line ++
  match e.failure with
  | some (.reported r) => [written terminal ("Error: " ++ r.message)]
  | _ => []

end TypedClient.CommandLine
