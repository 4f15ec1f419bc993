import TypedClient.Text.Blank

/-!
# `TypedClient.Client.Comment`: text of documents in comments

The texts of a document become lines of a comment. Each text is stripped and cut into
lines, texts are separated by an empty line, and the two characters that would end the
comment are pulled apart by a backslash.
-/

set_option autoImplicit false

namespace TypedClient.Comment

/-- The characters with a backslash inside every end of a comment. -/
def defuseChars : List Char → List Char
  | '*' :: '/' :: rest => '*' :: '\\' :: '/' :: defuseChars rest
  | c :: rest => c :: defuseChars rest
  | [] => []

/-- The text with a backslash inside every end of a comment. -/
def defuse (s : String) : String := String.ofList (defuseChars s.toList)

/-- The lines of one text. -/
def linesOf (part : String) : List String :=
  (Text.lines (Text.strip part)).map fun line => defuse (Text.stripEnd line)

/-- The lines of several texts, empty ones left out. -/
def lines (parts : List String) : List String :=
  parts.foldl (fun before part =>
    if part = "" then before
    else before ++ (if before.isEmpty then [] else [""]) ++ linesOf part) []

/-- A line of a block comment. -/
def blockLine (indent line : String) : String :=
  indent ++ " *" ++ if line = "" then "" else " " ++ line

/-- A block comment that holds lines. -/
def block (indent : String) (lines : List String) : String :=
  "\n".intercalate ([indent ++ "/**"] ++ lines.map (blockLine indent) ++ [indent ++ " */"])

end TypedClient.Comment
