import TypedClient.Text.Case

/-!
# `TypedClient.Name.Identifier`: identifiers for arbitrary texts

A name of a document becomes a TypeScript identifier by dropping the characters that
identifiers cannot hold and joining what is left: in camel case for values, in Pascal
case for types. A text that is an identifier already is kept, and so is one followed by a
single line feed.

* `isIdentifier`: the text is kept as an identifier.
* `toIdentifier`, `toTypeIdentifier`: the identifiers made of a text.
-/

set_option autoImplicit false

namespace TypedClient.Name

/-- A character that an identifier may hold. -/
def isIdentifierChar (c : Char) : Bool := c.isAlphanum || c = '_' || c = '$'

/-- A character that an identifier may start with. -/
def isIdentifierStart (c : Char) : Bool := c.isAlpha || c = '_' || c = '$'

/-- The characters form an identifier, possibly with a line feed after it. -/
def isIdentifierChars : List Char → Bool
  | [] => false
  | c :: rest =>
    isIdentifierStart c && (rest.all isIdentifierChar ||
      (rest.getLast? = some '\n' && rest.dropLast.all isIdentifierChar))

/-- The text passes for an identifier. -/
def isIdentifier (s : String) : Bool := isIdentifierChars s.toList

/-- Words that cannot be names of arguments. -/
def reserved : List String := [
  "break", "case", "catch", "class", "const", "continue", "debugger", "default", "delete",
  "do", "else", "enum", "export", "extends", "false", "finally", "for", "function", "if",
  "import", "in", "instanceof", "new", "null", "return", "super", "switch", "this", "throw",
  "true", "try", "typeof", "var", "void", "while", "with", "let", "static", "yield",
  "await", "implements", "interface", "package", "private", "protected", "public"]

/-- The runs of identifier characters of a text whose current run, in reverse, is
`word`. -/
def wordsFrom (word : List Char) : List Char → List (List Char)
  | [] => if word.isEmpty then [] else [word.reverse]
  | c :: rest =>
    if isIdentifierChar c then wordsFrom (c :: word) rest
    else if word.isEmpty then wordsFrom [] rest
    else word.reverse :: wordsFrom [] rest

/-- The runs of identifier characters of a text. -/
def words (s : String) : List (List Char) := wordsFrom [] s.toList

/-- The word with its first character in lower case. -/
def uncapitalizeChars : List Char → List Char
  | [] => []
  | c :: rest => Text.lowerChar c ++ rest

/-- The identifier with an underscore in front if it starts with a digit. -/
def guardDigit (cs : List Char) : List Char :=
  if cs.head?.any Char.isDigit then '_' :: cs else cs

/-- The camel case identifier made of a text. A reserved word gets an underscore. -/
def toIdentifier (s : String) : String :=
  if isIdentifier s && !reserved.contains s then s
  else match words s with
    | [] => "_"
    | first :: rest =>
      let name := String.ofList
        (guardDigit (uncapitalizeChars first ++ rest.flatMap Text.capitalizeChars))
      if reserved.contains name then name ++ "_" else name

/-- The Pascal case identifier made of a text. -/
def toTypeIdentifier (s : String) : String :=
  if isIdentifier s then s
  else match words s with
    | [] => "_"
    | ws => String.ofList (guardDigit (ws.flatMap Text.capitalizeChars))

end TypedClient.Name
