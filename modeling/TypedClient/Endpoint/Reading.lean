import TypedClient.Endpoint.Basic
import TypedClient.Schema.Reading
import TypedClient.Text.Lead

/-!
# `TypedClient.Endpoint.Reading`: the operations of a document

Nothing is dropped for missing metadata: what a document leaves out is empty. Parameters,
request bodies and responses may be references into the components of the document, which
are followed once. Parameters of a path apply to each of its operations; a parameter of
the operation itself replaces the one of the same name and location, in its place.

* `Endpoint.readParameters`: the parameters of an operation.
* `Endpoint.read`: one operation.
* `Endpoint.readAll`: the operations of all paths, paths in source order, methods in the
  order of `httpMethods`.
-/

set_option autoImplicit false

namespace TypedClient

/-- A table of a document that is keyed by text. -/
abbrev Table := List (String × Value)

/-- What references lead into. -/
inductive Components where
  | absent
  | table (t : Table)
  /-- A value that is no table. Following a reference into it is a defect. -/
  | misplaced
deriving Inhabited

namespace Endpoint

/-- A value of a mapping that may be missing where another mapping is due: nothing that
counts as false holds entries, and no other value that is not a mapping can be asked. -/
def section? (g : Graph) (components : Table) (name : String) :
    Except Failure (List (Value × Value)) :=
  let v := (components.lookup name).getD .null
  match g.entries? v with
  | some entries => .ok entries
  | none => if g.truthy v then .error (.defect .lookupInNonMapping) else .ok []

/-- The component of a section that a name refers to, null if there is none. -/
def component (g : Graph) (components : Components) (sectionName name : String) :
    Except Failure Value :=
  match components with
  | .absent => .ok .null
  | .misplaced => .error (.defect .lookupInNonMapping)
  | .table t => do
    let entries ← section? g t sectionName
    pure (lookupOrNull entries name)

/-- Note that a reference leads nowhere; it stands for null. -/
def unfollowed (sectionName pointer : String) : Logged Value := do
  Logged.note .debug .endpoints ("Cannot follow " ++ sectionName ++ " reference " ++ pointer)
  pure .null

/-- The node that a node stands for: a reference into a section of the components stands
for the component, null if there is none, and every other node for itself. -/
def dereference (g : Graph) (components : Components) (sectionName : String) (v : Value) :
    Logged Value :=
  match (g.entries? v).bind (lookupKey · "$ref") with
  | none => pure v
  | some pointer => do
    let pointer ← Logged.ofExcept (g.text pointer)
    match components, Text.afterLead? ("#/components/" ++ sectionName ++ "/") pointer with
    | .absent, _ | _, none => unfollowed sectionName pointer
    | _, some name => Logged.ofExcept (component g components sectionName name)

/-- The schemas of a body by content type. -/
def readContent (g : Graph) (v : Value) : Except Failure Content := do
  let entries := (g.entries? v).getD []
  let content ← entries.mapM fun e => do
    let contentType ← g.text e.1
    let media := (g.entries? e.2).getD []
    let schema ← Schema.read g (lookupOrNull media "schema")
    pure (contentType, schema)
  pure (Assoc.ofList content)

/-- A parameter with a name. A location that is unknown is the query, and a parameter of
the path is required whatever it says. -/
def readParameter (g : Graph) (name : Value) (entries : List (Value × Value)) :
    Except Failure Parameter := do
  let location := ((lookupOrNull entries "in").text?.bind Location.ofName?).getD .query
  let name ← g.text name
  let schema ← Schema.read g (lookupOrNull entries "schema")
  pure {
    name := name
    location := location
    required := g.truthy (lookupOrNull entries "required") || location = .path
    schema := schema
    description := Schema.textAt entries "description" }

/-- Note that a node is no parameter, if the node can be shown. -/
def noteNameless (g : Graph) (v : Value) : Logged Unit :=
  match g.shown v with
  | .ok node => Logged.note .debug .endpoints ("Skipping parameter without a name: " ++ node)
  | .error _ => pure ()

/-- The parameter that a node stands for; a node without a name is none. -/
def parameter? (g : Graph) (components : Components) (v : Value) : Logged (Option Parameter) := do
  let v ← dereference g components "parameters" v
  let entries := (g.entries? v).getD []
  match lookupKey entries "name" with
  | some name => do
    let p ← Logged.ofExcept (readParameter g name entries)
    pure (some p)
  | none => do
    noteNameless g v
    pure none

/-- The parameters that nodes stand for, in order. -/
def listedParameters (g : Graph) (components : Components) : List Value → Logged (List Parameter)
  | [] => pure []
  | v :: rest => do
    let p ← parameter? g components v
    let ps ← listedParameters g components rest
    pure (p.toList ++ ps)

/-- The parameters with no two of one key: the last one prevails, at the place of the
first. -/
def mergeParameters (ps : List Parameter) : List Parameter :=
  (Assoc.ofList (ps.map fun p => (p.key, p))).map Prod.snd

/-- The parameters of an operation: those of its path, then its own. What is not a list
holds none. -/
def readParameters (g : Graph) (components : Components) (shared own : Value) :
    Logged (List Parameter) := do
  let ps ← listedParameters g components
    ((g.items? shared).getD [] ++ (g.items? own).getD [])
  pure (mergeParameters ps)

/-- The request body that a node stands for. -/
def readRequestBody (g : Graph) (components : Components) (v : Value) :
    Logged (Option RequestBody) := do
  let v ← dereference g components "requestBodies" v
  match g.entries? v with
  | none => pure none
  | some entries => do
    let content ← Logged.ofExcept (readContent g (lookupOrNull entries "content"))
    pure (some ⟨g.truthy (lookupOrNull entries "required"), content⟩)

/-- The response that a node stands for. -/
def readResponse (g : Graph) (components : Components) (v : Value) : Logged Response := do
  let v ← dereference g components "responses" v
  let entries := (g.entries? v).getD []
  let content ← Logged.ofExcept (readContent g (lookupOrNull entries "content"))
  pure ⟨Schema.textAt entries "description", content⟩

/-- The responses by status, in order. -/
def listedResponses (g : Graph) (components : Components) :
    List (Value × Value) → Logged (List (String × Response))
  | [] => pure []
  | (status, v) :: rest => do
    let r ← readResponse g components v
    let status ← Logged.ofExcept (g.text status)
    let rs ← listedResponses g components rest
    pure ((status, r) :: rs)

/-- The responses of an operation. -/
def readResponses (g : Graph) (components : Components) (v : Value) :
    Logged (List (String × Response)) := do
  let rs ← listedResponses g components ((g.entries? v).getD [])
  pure (Assoc.ofList rs)

/-- The endpoint of an operation, given the entries of its node and the parameters that
its path shares. -/
def ofEntries (g : Graph) (components : Components) (path method : String) (shared : Value)
    (operation : List (Value × Value)) : Logged Endpoint := do
  let tags ← Logged.ofExcept (((g.items? (lookupOrNull operation "tags")).getD []).mapM g.text)
  let ps ← readParameters g components shared (lookupOrNull operation "parameters")
  let body ← readRequestBody g components (lookupOrNull operation "requestBody")
  let rs ← readResponses g components (lookupOrNull operation "responses")
  pure {
    path := path
    method := Text.upper method
    operationId := (lookupOrNull operation "operationId").text?.filter (· ≠ "")
    summary := Schema.textAt operation "summary"
    description := Schema.textAt operation "description"
    tags := tags
    parameters := ps
    requestBody := body
    responses := rs }

/-- The endpoint of an operation. -/
def read (g : Graph) (components : Components) (path method : String) (shared operation : Value) :
    Logged Endpoint :=
  match g.entries? operation with
  | some entries => ofEntries g components path method shared entries
  | none => Logged.fail (.defect .lookupInNonMapping)

/-- The mappings of an item of a path, under their keys in upper case. -/
def operations (g : Graph) (item : List (Value × Value)) :
    Except Failure (List (String × List (Value × Value))) :=
  (item.filterMap fun e => (g.entries? e.2).map (e.1, ·)).mapM fun e => do
    let key ← g.text e.1
    pure (Text.upper key, e.2)

/-- The operation for a method: the last one whose key is the method. -/
def operation? (operations : List (String × List (Value × Value))) (method : String) :
    Option (List (Value × Value)) :=
  ((operations.filter fun e => e.1 = method).getLast?).map Prod.snd

/-- The endpoints of a path with operations, for methods in turn. -/
def ofOperations (g : Graph) (components : Components) (path : String) (shared : Value)
    (operations : List (String × List (Value × Value))) : List String → Logged (List Endpoint)
  | [] => pure []
  | method :: rest => do
    let here ← match operation? operations method with
      | none => pure []
      | some operation => do
        let e ← ofEntries g components path method shared operation
        pure [e]
    let later ← ofOperations g components path shared operations rest
    pure (here ++ later)

/-- The endpoints of an item of a path. -/
def ofItem (g : Graph) (components : Components) (path : String) (item : List (Value × Value)) :
    Logged (List Endpoint) := do
  let operations ← Logged.ofExcept (operations g item)
  ofOperations g components path (lookupOrNull item "parameters") operations httpMethods

/-- The endpoints of paths, in order. -/
def ofPaths (g : Graph) (components : Components) : Table → Logged (List Endpoint)
  | [] => pure []
  | (path, v) :: rest => do
    let here ← match g.entries? v with
      | none => pure []
      | some item => ofItem g components path item
    let later ← ofPaths g components rest
    pure (here ++ later)

/-- The endpoints of a document. -/
def readAll (g : Graph) (components : Components) (paths : Table) : Logged (List Endpoint) := do
  let endpoints ← ofPaths g components paths
  Logged.note .debug .endpoints
    s!"Extracted {endpoints.length} endpoints from {paths.length} paths"
  pure endpoints

end Endpoint

end TypedClient
