import TypedClient.Name.Method
import TypedClient.Schema.Basic

/-!
# `TypedClient.Endpoint.Basic`: the operations of an interface

An endpoint is one HTTP method at one path with what the document says about it:
parameters, the request body and the responses.
-/

set_option autoImplicit false

namespace TypedClient

/-- Where a parameter travels. -/
inductive Location where
  | query
  | path
  | header
  | cookie
deriving DecidableEq, Inhabited

namespace Location

def name : Location → String
  | query => "query"
  | path => "path"
  | header => "header"
  | cookie => "cookie"

/-- The location that a name denotes. -/
def ofName? (s : String) : Option Location :=
  [query, path, header, cookie].find? (·.name == s)

end Location

/-- A parameter of an operation. -/
structure Parameter where
  name : String
  location : Location
  required : Bool
  schema : Schema
  description : String
deriving Inhabited

/-- What a pair of parameters may not share: operations tell them apart by it. -/
def Parameter.key (p : Parameter) : String × Location := (p.name, p.location)

/-- The schemas of a body by content type. -/
abbrev Content := List (String × Schema)

structure RequestBody where
  required : Bool
  content : Content
deriving Inhabited

structure Response where
  description : String
  content : Content
deriving Inhabited

/-- An operation of the interface. -/
structure Endpoint extends Route where
  summary : String
  description : String
  tags : List String
  parameters : List Parameter
  requestBody : Option RequestBody
  /-- The responses by status. -/
  responses : List (String × Response)
deriving Inhabited

/-- The HTTP methods that a client supports, in the order in which they are listed. -/
def httpMethods : List String := ["GET", "POST", "PUT", "DELETE", "PATCH"]

end TypedClient
