import TypedClient.Endpoint.Reading
import TypedClient.Json.Reader
import TypedClient.Text.Blank
import TypedClient.Yaml.Reader

/-!
# `TypedClient.Document`: documents that describe an interface

A document is read from a mapping: title, version and description, the base addresses of
servers, the paths and components as they stand, and the schemas among the components.
Paths and components have to be keyed by text.

A file is JSON if its suffix says so and YAML otherwise. What a text in YAML holds is left to a
reader; `Yaml.read` is one.

* `Document.ofData`: the document of a mapping.
* `loadData`, `loadDocument`: the mapping and the document that a file holds.
-/

set_option autoImplicit false

namespace TypedClient

/-- A document that describes an interface. -/
structure Document where
  title : String
  version : String
  description : String
  servers : List String
  /-- The graph that paths and components live in. -/
  graph : Graph
  paths : Table
  components : Table
  schemas : List (String × Schema)
  /-- No two schemas have one name. -/
  nodup_names : (schemas.map Prod.fst).Nodup

namespace Document

instance : Inhabited Document := ⟨"", "", "", [], default, [], [], [], List.nodup_nil⟩

/-- The text of a value, empty if the value counts as false. -/
def textOr (g : Graph) (v : Value) : Except Failure String :=
  if g.truthy v then g.text v else .ok ""

/-- The base addresses of the servers that have one. -/
def serverUrls (g : Graph) (servers : List Value) : Except Failure (List String) :=
  ((servers.map fun v => lookupOrNull ((g.entries? v).getD []) "url").filter g.truthy).mapM g.text

/-- A key as text: bytes that are UTF-8 count as the text they encode. -/
def keyText? : Value → Option String
  | .text s => some s
  | .bytes bs => String.fromUTF8? ⟨bs.toArray⟩
  | _ => none

/-- A mapping as a table, if its keys are text. -/
def tableOf (entries : List (Value × Value)) : Except Failure Table :=
  match entries.mapM fun e => (keyText? e.1).map (·, e.2) with
  | some table => .ok (Assoc.ofList table)
  | none => .error (.defect .keyNotText)

/-- The document of the entries of a mapping. -/
def ofEntries (g : Graph) (entries : List (Value × Value)) : Except Failure Document := do
  let info := (g.entries? (lookupOrNull entries "info")).getD []
  let servers := (g.items? (lookupOrNull entries "servers")).getD []
  let paths := (g.entries? (lookupOrNull entries "paths")).getD []
  let components := (g.entries? (lookupOrNull entries "components")).getD []
  let title ← textOr g (lookupOrNull info "title")
  let version ← textOr g (lookupOrNull info "version")
  let description ← textOr g (lookupOrNull info "description")
  let servers ← serverUrls g servers
  let schemas ← ((g.entries? (lookupOrNull components "schemas")).getD []).mapM fun e => do
    let name ← g.text e.1
    let schema ← Schema.read g e.2
    pure (name, schema)
  -- Keys are checked last: a schema that cannot be read is reported before them.
  let paths ← tableOf paths
  let components ← tableOf components
  pure {
    title := title
    version := version
    description := description
    servers := servers
    graph := g
    paths := paths
    components := components
    schemas := Assoc.ofList schemas
    nodup_names := Assoc.nodup_keys_ofList schemas }

/-- The document of a value, which has to be a mapping. -/
def ofData (d : Data) : Except Failure Document :=
  match d.graph.entries? d.root with
  | some entries => ofEntries d.graph entries
  | none => .error (.load .documentNotMapping)

/-- The endpoints of the document. -/
def endpoints (d : Document) : Logged (List Endpoint) :=
  Endpoint.readAll d.graph (.table d.components) d.paths

end Document

/-- The text with every line end a line feed. -/
def normalizeLineEnds : List Char → List Char
  | [] => []
  | '\r' :: '\n' :: rest => '\n' :: normalizeLineEnds rest
  | '\r' :: rest => '\n' :: normalizeLineEnds rest
  | c :: rest => c :: normalizeLineEnds rest

/-- The failure of reading JSON from a file. -/
def Json.Fault.failure (path : String) : Json.Fault → Failure
  | .malformed => .load (.malformed path)
  | .numberTooLong => .defect .integerTooLong

/-- The failure of reading YAML from a file. -/
def Yaml.Fault.failure (path : String) : Yaml.Fault → Failure
  | .malformed => .load (.malformed path)
  | .defect d => .defect d

/-- The value that the text of a file denotes, by a reader of YAML. -/
def parseText (yaml : Yaml.Reader) (path : Path) (text : String) : Except Failure Data :=
  if Text.lower path.suffix = ".json" then
    (Json.read text).mapError (Json.Fault.failure path.text)
  else (yaml text).mapError (Yaml.Fault.failure path.text)

/-- The mapping that a file holds, given what reading the file gave. -/
def loadData (yaml : Yaml.Reader) (path : Path) (content : Except FileError ByteArray) :
    Except Failure Data := do
  match content with
  | .error .nulInPath => throw (.defect (.file .nulInPath))
  | .error _ => throw (.load (.unreadable path.text))
  | .ok bytes => match String.fromUTF8? bytes with
    | none => throw (.load (.unreadable path.text))
    | some text => do
      let data ← parseText yaml path (String.ofList (normalizeLineEnds text.toList))
      if data.graph.isMapping data.root then pure data
      else throw (.load (.noMapping path.text))

/-- The document that a file holds, given what reading the file gave. -/
def loadDocument (yaml : Yaml.Reader) (path : Path) (content : Except FileError ByteArray) :
    Except Failure Document :=
  loadData yaml path content >>= Document.ofData

end TypedClient
