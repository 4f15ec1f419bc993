import TypedClient.Yaml.Cursor

/-!
# `TypedClient.Yaml.Token`: the tokens of YAML text

Block structure shows in tokens of its own: a block collection starts and ends with a
token, though only its indentation marks it in the text.
-/

set_option autoImplicit false

namespace TypedClient.Yaml

/-- An instruction to the reader of a document. -/
inductive Directive where
  | version (major : Nat)
  /-- Tags that begin with the handle are short for tags that begin with the lead. -/
  | tagLead (handle lead : String)
  | other
deriving DecidableEq

inductive Token where
  | directive (d : Directive)
  | documentStart
  | documentEnd
  | blockSequenceStart
  | blockMappingStart
  | blockEnd
  | flowSequenceStart
  | flowSequenceEnd
  | flowMappingStart
  | flowMappingEnd
  | flowEntry
  | blockEntry
  | key
  | value
  | aliasOf (name : String)
  | anchor (name : String)
  | tag (handle : Option String) (suffix : String)
  | scalar (text : String) (plain : Bool)
  | streamEnd
  /-- The text goes on, but not with a token. -/
  | fault (f : Fault)
deriving DecidableEq

end TypedClient.Yaml
