import TypedClient.Log
import TypedClient.Name.Identifier
import TypedClient.Name.Registry
import TypedClient.Path

/-!
# `TypedClient.Name.Method`: names of the client's methods

A method is named by its operation id. Without one its name is the HTTP method followed
by the segments of the path that are no parameters. Names are then made identifiers and
told apart in the order of the routes: a later route whose path has parameters is first
called after them, and numbered only if that name is taken as well.

* `choices`: what becomes of the name of each route.
* `uniqueNames`: the names that are given.
-/

set_option autoImplicit false

namespace TypedClient

/-- An HTTP method at a path, with the id that the document gives the operation. -/
structure Route where
  path : String
  method : String
  operationId : Option String
deriving DecidableEq, Inhabited

namespace Name

/-- The segments of a path that name something: not empty, not parameters. -/
def pathSegments (path : String) : List String :=
  (splitSlashes path).filter fun s => s ≠ "" && s.toList.head? ≠ some '\x7b'

/-- The type name of a path: its segments in Pascal case. -/
def typeName (path : String) : String :=
  String.join ((pathSegments path).map Text.capitalize)

/-- The name of a method. An empty operation id counts as none. -/
def methodName (r : Route) : String :=
  match r.operationId with
  | some "" | none => Text.lower r.method ++ typeName r.path
  | some id => id

/-- The name of the parameter that a whole segment stands for. -/
def segmentParameter? (segment : String) : Option String :=
  match segment.toList with
  | '\x7b' :: rest =>
    if rest.getLast? = some '\x7d' then some (String.ofList rest.dropLast) else none
  | _ => none

/-- What distinguishes a route by its path parameters, empty if there are none. -/
def parameterSuffix (path : String) : String :=
  match (splitSlashes path).filterMap segmentParameter? with
  | [] => ""
  | ps => "By" ++ "And".intercalate (ps.map fun p => Text.capitalize (toIdentifier p))

/-- The document names the operation of the route. -/
def isNamed (r : Route) : Bool := r.operationId.any (· ≠ "")

/-- What becomes of the name of a route: the name it asks for, the identifier made of it,
and the name it is given. -/
structure Choice where
  route : Route
  raw : String
  base : String
  given : String

/-- The name that a route puts in for, given the names that are taken. -/
def candidate (taken : Registry) (r : Route) : String :=
  let base := toIdentifier (methodName r)
  if taken.contains base && !isNamed r then base ++ parameterSuffix r.path else base

/-- What becomes of the names of routes, given the names that are taken. -/
def choicesFrom (taken : Registry) : List Route → List Choice
  | [] => []
  | r :: rest =>
    let (given, taken) := taken.claim (candidate taken r)
    let raw := methodName r
    ⟨r, raw, toIdentifier raw, given⟩ :: choicesFrom taken rest

/-- What becomes of the names of routes. -/
def choices (routes : List Route) : List Choice := choicesFrom ⟨[]⟩ routes

/-- The names of the methods for routes. -/
def uniqueNames (routes : List Route) : List String := (choices routes).map Choice.given

/-- What the log says about a choice: a name that had to change. -/
def Choice.notes (c : Choice) : List Note :=
  let place := " for " ++ c.route.method ++ " " ++ c.route.path
  (if c.base ≠ c.raw then
    [⟨.debug, .naming, "Method name " ++ c.raw ++ place ++
      " is not an identifier; using " ++ c.base⟩] else []) ++
  (if c.given ≠ c.base then
    [⟨if isNamed c.route then .warning else .debug, .naming,
      "Method name " ++ c.base ++ place ++ " already taken; using " ++ c.given⟩] else [])

end Name

end TypedClient
