import TypedClient.Package.Layout

/-!
# `TypedClient.Generation.Run`: generation runs

A run loads a document, extracts its endpoints, renders the files of the package and hands
them to a sink, strictly in this order. The progress of a run is its stage together with
what the stages have made so far. Each stage first looks whether it is its turn, then
makes its part and keeps it, and enters the next stage last. Files stay in memory until
they are written; a run that fails at an earlier stage hands nothing to the sink.

* `Progress.load`, `extract`, `resolve`, `write`: one stage each.
* `Progress.run`: all stages, ending idle in every case.
-/

set_option autoImplicit false

namespace TypedClient

/-- How far a run has come, and what it has made. -/
structure Progress where
  stage : Stage
  document? : Option Document
  endpoints : List Endpoint
  files : List GeneratedFile
deriving Inhabited

/-- Where a document comes from: a file, with what reading it gives, or a value. -/
inductive Source where
  | file (path : Path) (content : Except FileError ByteArray)
  | data (d : Data)

/-- The document of a source. -/
def Source.document : Source → Except Failure Document
  | file path content => loadDocument Yaml.read path content
  | data d => Document.ofData d

namespace Progress

/-- The progress of a run that has not begun. -/
def idle : Progress := ⟨.idle, none, [], []⟩

/-- Enter a stage from the one before it. -/
def enter (expected target : Stage) : Work Progress Unit := do
  let p ← Work.state
  if p.stage = expected then
    Work.change fun p => { p with stage := target }
    Work.ofLogged (Logged.note .info .generation ("Stage: " ++ target.name))
  else
    Work.ofLogged (Logged.fail (.generation (.enterWhile target p.stage expected)))

/-- Load a document. -/
def load (p : Progress) (source : Source) : Progress × Logged Document :=
  if p.stage = .idle then
    Work.run (do
      let document ← Work.ofLogged (Logged.ofExcept source.document)
      Work.change fun p => { p with document? := some document }
      enter .idle .specLoaded
      pure document) p
  else (p, Logged.fail (.generation (.loadWhile p.stage)))

/-- Extract the endpoints of the document. -/
def extract (p : Progress) : Progress × Logged (List Endpoint) :=
  match p.stage, p.document? with
  | .specLoaded, some document =>
    Work.run (do
      let endpoints ← Work.ofLogged document.endpoints
      Work.change fun p => { p with endpoints := endpoints }
      enter .specLoaded .extracted
      pure endpoints) p
  | _, _ => (p, Logged.fail (.generation (.extractWhile p.stage)))

/-- Render the files of the package. -/
def resolve (settings : Settings) (p : Progress) : Progress × Logged (List GeneratedFile) :=
  match p.stage, p.document? with
  | .extracted, some document =>
    Work.run (do
      let files ← Work.ofLogged (Package.render document p.endpoints settings)
      Work.change fun p => { p with files := files }
      enter .extracted .resolved
      pure files) p
  | _, _ => (p, Logged.fail (.generation (.renderWhile p.stage)))

/-- Hand the files to a sink. -/
def write {σ : Type} (sink : Sink σ) (p : Progress) (s : σ) :
    Progress × σ × Logged (List GeneratedFile) :=
  if p.stage = .resolved then
    let (s, taken) := sink s p.files
    let (q, files) := Work.run (do
      Work.ofLogged taken
      enter .resolved .written
      pure p.files) p
    (q, s, files)
  else (p, s, Logged.fail (.generation (.writeWhile p.stage)))

/-- Forget what the run has made. -/
def reset (_ : Progress) : Progress := idle

/-- All stages, one after the other, up to the first that fails. -/
def stages {σ : Type} (settings : Settings) (sink : Sink σ) (p : Progress) (source : Source)
    (s : σ) : Progress × σ × Logged (List GeneratedFile) :=
  let (p, first) := p.load source
  match first.outcome with
  | .error f => (p, s, ⟨.error f, first.notes⟩)
  | .ok _ =>
    let (p, second) := p.extract
    match second.outcome with
    | .error f => (p, s, ⟨.error f, first.notes ++ second.notes⟩)
    | .ok _ =>
      let (p, third) := p.resolve settings
      match third.outcome with
      | .error f => (p, s, ⟨.error f, first.notes ++ second.notes ++ third.notes⟩)
      | .ok _ =>
        let (p, s, last) := p.write sink s
        (p, s, ⟨last.outcome, first.notes ++ second.notes ++ third.notes ++ last.notes⟩)

/-- A reported failure is noted with the stage that the run had reached. -/
def failureNotes (p : Progress) : Except Failure (List GeneratedFile) → List Note
  | .error (.reported r) =>
    [⟨.error, .generation, "Generation failed after " ++ p.stage.name ++ ": " ++ r.message⟩]
  | _ => []

/-- Run every stage. The run is idle afterwards, whether it succeeds or fails. -/
def run {σ : Type} (settings : Settings) (sink : Sink σ) (p : Progress) (source : Source) (s : σ) :
    Progress × σ × Logged (List GeneratedFile) :=
  if p.stage = .idle then
    -- The note names the stage that was reached, before the run is idle again.
    let (q, s, files) := stages settings sink p source s
    (q.reset, s, ⟨files.outcome, files.notes ++ q.failureNotes files.outcome⟩)
  else (p, s, Logged.fail (.generation (.runWhile p.stage)))

end Progress

end TypedClient
