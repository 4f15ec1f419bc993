import TypedClient.Client.Declaration
import TypedClient.Client.Url

/-!
# `TypedClient.Client.Method`: the methods of a client

A method takes the parameters of its endpoint as arguments, required ones first, then the
body, then optional ones. Cookies are left to the transport. Arguments of the path go
into the address, the others into the options of the call under the names of their
parameters. A placeholder of the path that no parameter declares is a parameter of its
own, a required text.

* `Builder.method`: the method of an endpoint, and the declarations it adds.
* `Builder.clientContext`: the methods of several endpoints.
-/

set_option autoImplicit false

namespace TypedClient

/-- An argument of a method. -/
structure Argument where
  parameter : Parameter
  name : String
  type : String
deriving Inhabited

namespace Argument

/-- The argument in the list of arguments. -/
def declared (a : Argument) : String :=
  a.name ++ (if a.parameter.required then ": " else "?: ") ++ a.type

/-- The argument under the name of its parameter in a record. -/
def entry (a : Argument) : String :=
  if a.parameter.name = a.name then a.name else propertyKey a.parameter.name ++ ": " ++ a.name

/-- The first line of the description of an argument that has one. -/
def docLine? (a : Argument) : Option String :=
  (Comment.lines [a.parameter.description]).head?.map fun text =>
    "@param " ++ a.name ++ " " ++ text

end Argument

/-- The arguments of a method. -/
structure Signature where
  required : List Argument
  /-- The name and the type of the body, and whether it is required. -/
  body : Option (String × String × Bool)
  optional : List Argument
deriving Inhabited

/-- The list of arguments. -/
def Signature.text (s : Signature) : String :=
  ", ".intercalate (s.required.map Argument.declared ++
    (s.body.map fun (name, type, required) =>
      name ++ (if required then ": " else "?: ") ++ type).toList ++
    s.optional.map Argument.declared)

/-- The call of the transport that a method makes. -/
structure Call where
  url : String
  /-- What is sent, for the HTTP methods that send something. -/
  payload : Option String
  query : List Argument
  headers : List Argument
deriving Inhabited

namespace Call

/-- A record of arguments under a key. -/
def option (key : String) : List Argument → List String
  | [] => []
  | arguments =>
    [key ++ ": \x7b " ++ ", ".intercalate (arguments.map Argument.entry) ++ " \x7d"]

/-- The arguments of the call. -/
def text (c : Call) : String :=
  let options := option "params" c.query ++ option "headers" c.headers
  ", ".intercalate ([c.url] ++ c.payload.toList ++
    if options.isEmpty then [] else ["\x7b " ++ ", ".intercalate options ++ " \x7d"])

end Call

/-- A method of the client as it is written out. -/
structure Method where
  name : String
  verb : String
  method : String
  path : String
  signature : String
  returnType : String
  callArguments : String
  doc : List String
  tags : List String
deriving DecidableEq, Inhabited

/-- The names that the body of every method uses. -/
def methodLocals : List String := ["response"]

/-- The verbs that send a payload. -/
def payloadVerbs : List String := ["post", "put", "patch"]

namespace Endpoint

/-- The names of placeholders that no parameter of the path declares, each once. -/
def undeclaredPlaceholders (e : Endpoint) : List String :=
  let declared := (e.parameters.filter (·.location = .path)).map Parameter.name
  ((PathTemplate.ofString e.path).names.filter (!declared.contains ·)).eraseDups

/-- The parameter that a placeholder without a declaration stands for. -/
def placeholderParameter (name : String) : Parameter :=
  ⟨name, .path, true, .primitive (some "string") none none "", ""⟩

/-- The parameters of the endpoint and of its placeholders. -/
def allParameters (e : Endpoint) : List Parameter :=
  e.parameters ++ e.undeclaredPlaceholders.map placeholderParameter

/-- The parameters that become arguments. -/
def surfacedParameters (e : Endpoint) : List Parameter :=
  e.allParameters.filter (·.location ≠ .cookie)

/-- The names that are taken before parameters are named: the body has a name of its own. -/
def takenNames (e : Endpoint) : Name.Registry × Option String :=
  match e.requestBody with
  | none => (⟨methodLocals⟩, none)
  | some _ =>
    let (name, r) := (⟨methodLocals⟩ : Name.Registry).claim "body"
    (r, some name)

/-- Note the placeholders without a declaration. -/
def notePlaceholders (e : Endpoint) : Logged Unit :=
  Logged.noteAll (e.undeclaredPlaceholders.map fun name =>
    ⟨.debug, .context, e.method ++ " " ++ e.path ++ ": undeclared path parameter " ++ name⟩)

/-- Note what is odd about parameters: that one is a cookie, or something in its type. -/
def noteParameters (e : Endpoint) (names : TypeNames) : List Parameter → Logged Unit
  | [] => pure ()
  | p :: rest => do
    if p.location = .cookie then
      Logged.note .debug .context (e.method ++ " " ++ e.path ++ ": cookie parameter " ++ p.name ++
        " is not surfaced")
    else noteType (some names) (some p.name) p.schema
    noteParameters e names rest

end Endpoint

/-- The arguments for parameters, given the names that are taken. -/
def nameArguments (names : TypeNames) : Name.Registry → List Parameter → List Argument
  | _, [] => []
  | r, p :: rest =>
    let (name, r) := r.claim (Name.toIdentifier p.name)
    ⟨p, name, typeText (some names) p.schema 1⟩ :: nameArguments names r rest

/-- The arguments that parameters of the path become, by the names of the parameters. -/
def pathArguments (arguments : List Argument) : List (String × String) :=
  Assoc.ofList ((arguments.filter (·.parameter.location = .path)).map fun a =>
    (a.parameter.name, a.name))

/-- The comment above a method. -/
def methodDoc (e : Endpoint) (arguments : List Argument) : List String :=
  let lines := Comment.lines [e.summary, e.description]
  lines ++ (if lines.isEmpty then [] else [""]) ++ [e.method ++ " " ++ e.path] ++
    arguments.filterMap Argument.docLine?

namespace Builder

/-- The method of an endpoint. Records that it takes or returns are declared; those that
it takes stay declared if what it returns cannot be found out. -/
def method (e : Endpoint) (name : String) : Work Builder Method := do
  let names := (← Work.state).typeNames
  -- The body is named before the parameters, so it is `body` whatever they are called.
  let (taken, bodyName) := e.takenNames
  let arguments := nameArguments names taken e.surfacedParameters
  Work.ofLogged e.notePlaceholders
  Work.ofLogged (e.noteParameters names e.allParameters)
  let bodyType ← match bodyName with
    | none => pure ""
    | some _ => schemaType e e.bodySchema "Body"
  let success ← Work.ofLogged (Logged.ofExcept e.successSchema)
  let returnType ← schemaType e success "Response"
  let verb := Text.lower e.method
  let signature : Signature := {
    required := arguments.filter (·.parameter.required)
    body := bodyName.map fun n => (n, bodyType, e.requestBody.any RequestBody.required)
    optional := arguments.filter (!·.parameter.required) }
  let call : Call := {
    url := Url.expression e.path (pathArguments arguments)
    payload := if payloadVerbs.contains verb then some (bodyName.getD "undefined") else none
    query := arguments.filter (·.parameter.location = .query)
    headers := arguments.filter (·.parameter.location = .header) }
  pure {
    name := name
    verb := verb
    method := e.method
    path := e.path
    signature := signature.text
    returnType := returnType
    callArguments := call.text
    doc := methodDoc e arguments
    tags := e.tags }

/-- The methods of endpoints under names, up to the first that fails. -/
def methods : List (Endpoint × String) → Work Builder (List Method)
  | [] => pure []
  | (e, name) :: rest => do
    let m ← method e name
    let ms ← methods rest
    pure (m :: ms)

end Builder

/-- What the file of the client says. -/
structure ClientContext where
  title : String
  version : String
  description : List String
  clientClass : String
  transport : String
  httpClientImport : String
  typesImport : String
  /-- The names of the declarations that the client imports. -/
  typeImports : List String
  baseUrl : String
  methods : List Method
deriving Inhabited

/-- The client for endpoints. Its imports are listed after its methods are made, so they
include the records of these. -/
def Builder.clientContext (endpoints : List Endpoint) (httpClientImport typesImport : String) :
    Work Builder ClientContext := do
  declareAll
  let choices := Name.choices (endpoints.map Endpoint.toRoute)
  Work.ofLogged (Logged.noteAll (choices.flatMap Name.Choice.notes))
  let methods ← methods (endpoints.zip (choices.map Name.Choice.given))
  let b ← Work.state
  pure {
    title := b.document.title
    version := b.document.version
    description := Comment.lines [b.document.description]
    clientClass := clientClass
    transport := transportInterface
    httpClientImport := httpClientImport
    typesImport := typesImport
    typeImports := b.declaredNames
    baseUrl := textLiteral (b.document.servers.head?.getD "")
    methods := methods }

end TypedClient
