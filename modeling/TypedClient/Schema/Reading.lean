import TypedClient.Failure
import TypedClient.Schema.Basic
import TypedClient.Value.Text

/-!
# `TypedClient.Schema.Reading`: schemas of nodes

What a mapping says about a value shows in its keys: a reference, a scalar type or an
enumeration, items, properties. A mapping with one of these tags is a schema of that
shape, one with none is unknown, and one with several has no reading. Schemas are read
into the items of arrays and the properties of objects; a mapping inside itself has no
reading either, while one that is shared is read at each place.
-/

set_option autoImplicit false

namespace TypedClient.Schema

/-- The scalar types. -/
def scalarTypes : List String := ["string", "number", "integer", "boolean"]

/-- What marks the shape of a schema node. -/
inductive Tag where
  | reference
  | primitive
  | array
  | object
deriving DecidableEq

def Tag.name : Tag → String
  | reference => "ref"
  | primitive => "primitive"
  | array => "array"
  | object => "object"

/-- The declared type of a node: a text, or the only item of a list that is not `null`. -/
def declaredType (g : Graph) (entries : List (Value × Value)) : Option String :=
  let declared := lookupOrNull entries "type"
  match g.items? declared with
  | some items => match items.filter (· ≠ .text "null") with
    | [t] => t.text?
    | _ => none
  | none => declared.text?

/-- The tags of a node. -/
def tags (g : Graph) (entries : List (Value × Value)) : List Tag :=
  let declared := declaredType g entries
  let has := fun (key : String) => (lookupKey entries key).isSome
  (if has "$ref" then [.reference] else []) ++
  (if (g.items? (lookupOrNull entries "enum")).isSome || declared.any scalarTypes.contains
    then [.primitive] else []) ++
  (if has "items" || declared = some "array" then [.array] else []) ++
  (if has "properties" || declared = some "object" then [.object] else [])

/-- The text under a key, empty if there is none. -/
def textAt (entries : List (Value × Value)) (key : String) : String :=
  (lookupOrNull entries key).text?.getD ""

/-- The names of the required properties. -/
def requiredNames (g : Graph) (entries : List (Value × Value)) : Except Failure (List String) := do
  match g.items? (lookupOrNull entries "required") with
  | some items => pure (← items.mapM g.text).eraseDups
  | none => pure []

/-- The schema of a node within the mappings `outer` that hold it. No two of these are
the same, so a graph has fewer of them than `fuel`. -/
def readWithin (g : Graph) : (fuel : Nat) → (outer : List Nat) → Value → Except Failure Schema
  | 0, _, _ => .error (.schema .selfContaining)
  | fuel + 1, outer, v => match v, g.entries? v with
    | .node id, some entries =>
      -- A mapping that is met again beside itself, not inside, is no cycle.
      if outer.contains id then .error (.schema .selfContaining)
      else
        let description := textAt entries "description"
        match tags g entries with
        | [] => .ok (.unknown description)
        | [.reference] => do
          let pointer ← g.text (lookupOrNull entries "$ref")
          pure (.reference pointer description)
        | [.primitive] =>
          .ok (.primitive (declaredType g entries) (lookupOrNull entries "format").text?
            (g.items? (lookupOrNull entries "enum")) description)
        | [.array] =>
          let items := lookupOrNull entries "items"
          if g.isMapping items then do
            let schema ← readWithin g fuel (id :: outer) items
            pure (.array schema description)
          else .ok (.anyArray description)
        | [.object] =>
          match g.entries? (lookupOrNull entries "properties") with
          | some properties => do
            let fields ← properties.mapM fun e => do
              let name ← g.text e.1
              let schema ← readWithin g fuel (id :: outer) e.2
              pure (name, schema)
            let required ← requiredNames g entries
            pure (.record (Fields.ofList (Assoc.ofList fields)) required description)
          | none => do
            let required ← requiredNames g entries
            pure (.anyRecord required description)
        | several => do
          let node ← g.shown v
          throw (.schema (.ambiguous (several.map Tag.name) node))
    | _, _ => .ok (.unknown "")

/-- The schema of a node. -/
def read (g : Graph) (v : Value) : Except Failure Schema :=
  readWithin g (g.nodes.size + 1) [] v

end TypedClient.Schema
