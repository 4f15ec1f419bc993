import TypedClient.Path
import TypedClient.Value.Basic

/-!
# `TypedClient.Schema.Basic`: schemas

A schema is one of six shapes. It says less than the node it was read from: only what
decides the TypeScript type is kept, and a description.
-/

set_option autoImplicit false

namespace TypedClient

mutual

/-- The shape of a value. -/
inductive Schema where
  /-- A scalar type, or the members of an enumeration. -/
  | primitive (type format : Option String) (members : Option (List Value)) (description : String)
  /-- An array whose items have a schema. -/
  | array (items : Schema) (description : String)
  /-- An array of whatever items. -/
  | anyArray (description : String)
  /-- An object with a table of properties, some of which are required. -/
  | record (fields : Fields) (required : List String) (description : String)
  /-- An object without a table of properties. -/
  | anyRecord (required : List String) (description : String)
  /-- The schema that a pointer refers to. -/
  | reference (pointer description : String)
  /-- No shape that is known. -/
  | unknown (description : String)

/-- The properties of an object, in order. -/
inductive Fields where
  | nil
  | cons (name : String) (schema : Schema) (rest : Fields)

end

instance : Inhabited Schema := ⟨.unknown ""⟩

instance : Inhabited Fields := ⟨.nil⟩

namespace Fields

def ofList : List (String × Schema) → Fields
  | [] => nil
  | (name, schema) :: rest => cons name schema (ofList rest)

def toList : Fields → List (String × Schema)
  | nil => []
  | cons name schema rest => (name, schema) :: rest.toList

def isEmpty : Fields → Bool
  | nil => true
  | cons _ _ _ => false

end Fields

namespace Schema

def description : Schema → String
  | primitive _ _ _ d | array _ d | anyArray d | record _ _ d | anyRecord _ d
  | reference _ d | unknown d => d

/-- The schema is an object with at least one property. -/
def isRecord : Schema → Bool
  | record fields _ _ => !fields.isEmpty
  | _ => false

/-- The last segment of a pointer, slashes at its end aside. -/
def pointerName (pointer : String) : String :=
  let trimmed := (pointer.toList.reverse.dropWhile (· = '/')).reverse
  String.ofList ((trimmed.reverse.takeWhile (· ≠ '/')).reverse)

end Schema

end TypedClient
