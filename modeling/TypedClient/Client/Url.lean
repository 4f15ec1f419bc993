/-!
# `TypedClient.Client.Url`: addresses as template literals

A path template holds placeholders in braces. `PathTemplate.ofString` cuts it at them: a
placeholder is an opening brace, one or more characters other than a closing brace and a
slash, and a closing brace. The address of an endpoint is a TypeScript template literal
that starts with the base address and puts an argument, encoded, in the place of each
placeholder.
-/

set_option autoImplicit false

namespace TypedClient

/-- A path cut at its placeholders: the text before the first one, and each name with
the text after it. -/
structure PathTemplate where
  lead : List Char
  steps : List (List Char × List Char)
deriving DecidableEq, Inhabited

namespace PathTemplate

/-- The template with text in front. -/
def prepend (cs : List Char) (t : PathTemplate) : PathTemplate :=
  { t with lead := cs ++ t.lead }

/-- The template of a text. `held` are the characters since an opening brace, in reverse,
that may turn out to be a placeholder. A slash shows that they are none, whichever brace
among them one starts from. -/
def cut : (held : Option (List Char)) → List Char → PathTemplate
  | none, [] => ⟨[], []⟩
  | some run, [] => ⟨'\x7b' :: run.reverse, []⟩
  | none, c :: rest =>
    if c = '\x7b' then cut (some []) rest else (cut none rest).prepend [c]
  | some run, c :: rest =>
    if c = '\x7d' then
      if run.isEmpty then (cut none rest).prepend ['\x7b', '\x7d']
      else
        let t := cut none rest
        ⟨[], (run.reverse, t.lead) :: t.steps⟩
    else if c = '/' then (cut none rest).prepend ('\x7b' :: run.reverse ++ ['/'])
    else cut (some (c :: run)) rest

def ofString (s : String) : PathTemplate := cut none s.toList

/-- The names of the placeholders, in order. -/
def names (t : PathTemplate) : List String := t.steps.map fun s => String.ofList s.1

end PathTemplate

namespace Url

/-- The characters as they stand in a template literal: backslashes, backticks and the
start of a substitution are escaped. -/
def escapeChars : List Char → List Char
  | '\\' :: rest => '\\' :: '\\' :: escapeChars rest
  | '`' :: rest => '\\' :: '`' :: escapeChars rest
  | '$' :: '\x7b' :: rest => '\\' :: '$' :: '\x7b' :: escapeChars rest
  | c :: rest => c :: escapeChars rest
  | [] => []

/-- The text as it stands in a template literal. -/
def escape (s : String) : String := String.ofList (escapeChars s.toList)

/-- A substitution in a template literal. -/
def substitution (expression : String) : String :=
  "$\x7b" ++ expression ++ "\x7d"

/-- The encoded value of an argument. -/
def encodedArgument (name : String) : String :=
  "encodeURIComponent(String(" ++ name ++ "))"

/-- What stands for a placeholder: its argument, or the placeholder itself if it has
none. -/
def placeholder (arguments : List (String × String)) (name : List Char) : String :=
  match arguments.lookup (String.ofList name) with
  | some argument => substitution (encodedArgument argument)
  | none => String.ofList (escapeChars ('\x7b' :: name ++ ['\x7d']))

/-- The template literal for a path, given the arguments of its placeholders. -/
def expression (path : String) (arguments : List (String × String)) : String :=
  let t := PathTemplate.ofString path
  "`" ++ substitution "this.baseUrl" ++ String.ofList (escapeChars t.lead) ++
    String.join (t.steps.map fun s =>
      placeholder arguments s.1 ++ String.ofList (escapeChars s.2)) ++ "`"

end Url

end TypedClient
