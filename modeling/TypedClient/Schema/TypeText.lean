import TypedClient.Log
import TypedClient.Schema.Basic
import TypedClient.Schema.Literal
import TypedClient.Value.Text

/-!
# `TypedClient.Schema.TypeText`: the TypeScript type of a schema

Enumerations are unions of literals in source order, arrays are `Array<T>`, objects are
records with one property a line, and references are the names of declarations: they are
never followed, so types are finite. Whatever has no shape is `any`.

`typeText` is the type alone. `noteType` is what the log says about it: shapes that are
unknown, and references to declarations that there are none of. An integer that is too
long to be written stops it, and `resolvedType` with it.
-/

set_option autoImplicit false

namespace TypedClient

/-- The declared name of every component schema. -/
abbrev TypeNames := List (String × String)

def unknownType : String := "any"

/-- The type of objects whose properties are not known. -/
def openRecordType : String := "Record<string, any>"

/-- The blanks in front of a line at a depth. There are none at a depth below zero. -/
def indentation (depth : Int) : String :=
  String.ofList (List.replicate (2 * depth).toNat ' ')

/-- The TypeScript type for the name of a scalar type. -/
def scalarType (type : Option String) : String :=
  match type with
  | some "string" => "string"
  | some "number" => "number"
  | some "integer" => "number"
  | some "boolean" => "boolean"
  | _ => unknownType

/-- The union of the members that have literals, if any has one. -/
def unionText? (members : List Value) : Option String :=
  match members.filterMap Value.literal? with
  | [] => none
  | literals => some (" | ".intercalate literals)

/-- The type that a pointer refers to. Without a table of names the name is made of the
pointer, and so it is for a name that the table lacks. -/
def referenceType (names : Option TypeNames) (pointer : String) : String :=
  let name := Schema.pointerName pointer
  if name = "" then unknownType
  else match names.bind (·.lookup name) with
    | some declared => declared
    | none => Name.toTypeIdentifier name

/-- A record type with the lines of its properties, at a depth. -/
def recordText (lines : List String) (depth : Int) : String :=
  "\x7b\n" ++ "\n".intercalate lines ++ "\n" ++ indentation depth ++ "\x7d"

mutual

/-- The type of a schema, whose records are indented from a depth. -/
def typeText (names : Option TypeNames) : Schema → (depth : Int) → String
  | .primitive type _ members _, _ => ((members.bind unionText?)).getD (scalarType type)
  | .array items _, depth => "Array<" ++ typeText names items depth ++ ">"
  | .anyArray _, _ => unknownType ++ "[]"
  | .record fields required _, depth =>
    if fields.isEmpty then openRecordType
    else recordText (fieldLines names required fields (depth + 1)) depth
  | .anyRecord _ _, _ => openRecordType
  | .reference pointer _, _ => referenceType names pointer
  | .unknown _, _ => unknownType

/-- The lines of the properties of a record, at a depth. -/
def fieldLines (names : Option TypeNames) (required : List String) :
    Fields → (depth : Int) → List String
  | .nil, _ => []
  | .cons name schema rest, depth =>
    (indentation depth ++ propertyKey name ++ (if required.contains name then "" else "?") ++
      ": " ++ typeText names schema depth ++ ";") :: fieldLines names required rest depth

end

/-- The place that a note names: a hint, or the mark of a place without a name. -/
def placeName (hint : Option String) : String :=
  match hint with
  | some "" | none => "<inline>"
  | some h => h

mutual

/-- Note what is odd about the type of a schema at a place. -/
def noteType (names : Option TypeNames) (hint : Option String) : Schema → Logged Unit
  | .primitive _ _ members _ =>
    if (members.getD []).all Value.fits then pure ()
    else Logged.fail (.defect .integerTooLong)
  | .array items _ => noteType names hint items
  | .record fields _ _ => noteFields names fields
  | .reference pointer _ =>
    let name := Schema.pointerName pointer
    if name ≠ "" && names.any fun table => (table.lookup name).isNone then
      Logged.note .warning .schema
        ("Unresolved reference " ++ pointer ++ " in " ++ placeName hint)
    else pure ()
  | .unknown _ =>
    Logged.note .debug .schema
      ("Schema " ++ placeName hint ++ " has no recognisable shape; using " ++ unknownType)
  | .anyArray _ | .anyRecord _ _ => pure ()

/-- Note what is odd about the types of properties. -/
def noteFields (names : Option TypeNames) : Fields → Logged Unit
  | .nil => pure ()
  | .cons name schema rest => do
    noteType names (some name) schema
    noteFields names rest

end

/-- The type of a schema at a place, with what is odd about it. -/
def resolvedType (names : Option TypeNames) (hint : Option String) (schema : Schema)
    (depth : Int) : Logged String := do
  noteType names hint schema
  pure (typeText names schema depth)

end TypedClient
