import TypedClient.Decimal.Shortest
import TypedClient.Name.Identifier
import TypedClient.Value.Basic

/-!
# `TypedClient.Schema.Literal`: literals of TypeScript

Scalars that TypeScript has literals for: booleans, null, numbers and texts. Texts stand
in single quotes; backslashes, single quotes, line feeds and carriage returns in them are
escaped. A property whose name is no identifier is named by such a literal.
-/

set_option autoImplicit false

namespace TypedClient

/-- How doubles without digits are named in literals. -/
def literalNames : Binary64.SpecialNames := ⟨"NaN", "Infinity"⟩

/-- One character of a text literal. -/
def literalChar (c : Char) : List Char :=
  if c = '\\' then ['\\', '\\']
  else if c = '\'' then ['\\', '\'']
  else if c = '\n' then ['\\', 'n']
  else if c = '\r' then ['\\', 'r']
  else [c]

/-- The literal of a text. -/
def textLiteral (s : String) : String :=
  String.ofList ('\'' :: s.toList.flatMap literalChar ++ ['\''])

/-- The literal of a value, if it has one. -/
def Value.literal? : Value → Option String
  | null => some "null"
  | bool b => some (if b then "true" else "false")
  | int i => some (toString i)
  | float x => some (x.text literalNames)
  | text s => some (textLiteral s)
  | date _ | timestamp _ | bytes _ | node _ => none

/-- The name of a property as it stands in a record type. -/
def propertyKey (name : String) : String :=
  if Name.isIdentifier name then name else textLiteral name

end TypedClient
