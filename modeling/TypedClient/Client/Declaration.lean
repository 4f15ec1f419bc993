import TypedClient.Client.Comment
import TypedClient.Document
import TypedClient.Endpoint.Success
import TypedClient.Schema.TypeText

/-!
# `TypedClient.Client.Declaration`: the type declarations of a client

A client declares a type for every component schema of its document and one for every
record that stands in a request or response of its own. The names are handed out by one
registry, first to the component schemas in their order, then to the records as they are
met, and the names that the client's files declare themselves are taken from the start.

The state of this is a `Builder`. Component schemas are declared once, into a cache that
keeps the order of first use; records are hoisted into a list after them.
-/

set_option autoImplicit false

namespace TypedClient

inductive DeclarationKind where
  | interface
  | typeAlias
deriving DecidableEq, Inhabited

def DeclarationKind.name : DeclarationKind → String
  | interface => "interface"
  | typeAlias => "alias"

/-- The declaration of a type. -/
structure Declaration where
  name : String
  kind : DeclarationKind
  body : String
  /-- The lines of the comment above it. -/
  doc : List String
deriving DecidableEq, Inhabited

/-- Values that are made once for each name. -/
structure Cache (α : Type) where
  entries : List (String × α)
deriving Inhabited

namespace Cache

def contains {α : Type} (c : Cache α) (name : String) : Bool :=
  (c.entries.lookup name).isSome

/-- The value of a name, which is made if there is none yet. -/
def getOrMake {α : Type} (c : Cache α) (name : String) (make : Unit → α) : α × Cache α :=
  match c.entries.lookup name with
  | some a => (a, c)
  | none =>
    let a := make ()
    (a, ⟨c.entries ++ [(name, a)]⟩)

/-- The values in the order in which they were made. -/
def values {α : Type} (c : Cache α) : List α := c.entries.map Prod.snd

end Cache

/-- The class that a client declares. -/
def clientClass : String := "ApiClient"

/-- The interface through which a client sends requests. -/
def transportInterface : String := "HttpClient"

/-- The names that the files of a client declare themselves. -/
def builtinNames : List String :=
  [clientClass, transportInterface, "RequestOptions", "HttpResponse"]

/-- The type declarations of a client so far. -/
structure Builder where
  document : Document
  registry : Name.Registry
  /-- The declared name of every component schema. -/
  typeNames : TypeNames
  cache : Cache Declaration
  /-- The records that were given a declaration of their own. -/
  hoisted : List Declaration
deriving Inhabited

namespace Builder

/-- Hand out names for schemas, in order. -/
def claimAll (r : Name.Registry) : List String → TypeNames × Name.Registry
  | [] => ([], r)
  | name :: rest =>
    let (declared, r) := r.claim (Name.toTypeIdentifier name)
    let (table, r) := claimAll r rest
    ((name, declared) :: table, r)

/-- The state before anything is declared. -/
def ofDocument (d : Document) : Builder :=
  let (typeNames, registry) := claimAll ⟨builtinNames⟩ (d.schemas.map Prod.fst)
  ⟨d, registry, typeNames, ⟨[]⟩, []⟩

/-- The declaration of a schema under a name. -/
def declaration (b : Builder) (name : String) (schema : Schema) : Declaration where
  name := name
  kind := if schema.isRecord then .interface else .typeAlias
  body := typeText (some b.typeNames) schema 0
  doc := Comment.lines [schema.description]

/-- Declare a component schema, if it is not declared yet. -/
def declareSchema (name : String) (schema : Schema) : Work Builder Unit := do
  let b ← Work.state
  if b.cache.contains name then pure ()
  else do
    Work.ofLogged (noteType (some b.typeNames) (some name) schema)
    let declared := (b.typeNames.lookup name).getD name
    Work.change fun b =>
      { b with cache := (b.cache.getOrMake name fun _ => b.declaration declared schema).2 }

/-- Declare schemas in order. -/
def declareEach : List (String × Schema) → Work Builder Unit
  | [] => pure ()
  | (name, schema) :: rest => do
    declareSchema name schema
    declareEach rest

/-- Declare all component schemas. -/
def declareAll : Work Builder Unit := do
  declareEach (← Work.state).document.schemas

/-- The declarations so far: component schemas, then records. -/
def declarations (b : Builder) : List Declaration := b.cache.values ++ b.hoisted

def declaredNames (b : Builder) : List String := b.declarations.map Declaration.name

/-- Give a record of an endpoint a declaration of its own, named after the endpoint. The
name is taken even if the record turns out to have no type. -/
def hoist (e : Endpoint) (schema : Schema) (suffix : String) : Work Builder String := do
  let b ← Work.state
  -- `POST /pets` has `PetsPostBody` and `PetsPostResponse`.
  let base := Name.typeName e.path ++ Text.capitalize (Text.lower e.method) ++ suffix
  let (name, registry) := b.registry.claim (Name.toTypeIdentifier base)
  Work.change fun b => { b with registry }
  Work.ofLogged (noteType (some b.typeNames) (some name) schema)
  Work.change fun b => { b with hoisted := b.hoisted ++ [b.declaration name schema] }
  pure name

/-- The type of what an endpoint takes or returns. -/
def schemaType (e : Endpoint) (schema : Option Schema) (suffix : String) :
    Work Builder String := do
  match schema with
  | none => pure unknownType
  | some schema =>
    if schema.isRecord then hoist e schema suffix
    else
      let place := e.method ++ " " ++ e.path ++ " " ++ suffix
      Work.ofLogged (resolvedType (some (← Work.state).typeNames) (some place) schema 1)

end Builder

/-- What the file of type declarations says. -/
structure TypesContext where
  title : String
  version : String
  declarations : List Declaration
deriving Inhabited

/-- Declare what is left and list the declarations. -/
def Builder.typesContext : Work Builder TypesContext := do
  declareAll
  let b ← Work.state
  pure ⟨b.document.title, b.document.version, b.declarations⟩

end TypedClient
