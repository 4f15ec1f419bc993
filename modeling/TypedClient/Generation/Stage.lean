/-!
# `TypedClient.Generation.Stage`: how far a generation run has come
-/

set_option autoImplicit false

namespace TypedClient

/-- The stages of a generation run, in order. -/
inductive Stage where
  | idle
  | specLoaded
  | extracted
  | resolved
  | written
deriving DecidableEq, Inhabited

/-- The stage as it is named in messages. -/
def Stage.name : Stage → String
  | idle => "idle"
  | specLoaded => "spec_loaded"
  | extracted => "extracted"
  | resolved => "resolved"
  | written => "written"

end TypedClient
