import TypedClient.Failure
import TypedClient.Json.Token

/-!
# `TypedClient.Json.Reader`: documents written in JSON

Reading keeps the lists and mappings that are still open on a stack and takes one token
at a time. A key that occurs twice in a mapping keeps its first place and its last value.
-/

set_option autoImplicit false

namespace TypedClient.Json

/-- Why a text is no document. -/
inductive Fault where
  | malformed
  | numberTooLong
deriving DecidableEq

/-- A list or mapping that is still open, with what it holds so far. The items of a list
are in reverse. -/
inductive Frame where
  | list (items : List Value)
  | map (entries : List (Value × Value)) (key : Value)

/-- What may come next. -/
inductive Expectation where
  | value
  | valueOrEnd
  | key
  | keyOrEnd
  | colon
  | separator
  | nothing (root : Value)

/-- A document that is being read. -/
structure Reading where
  nodes : Array Node
  frames : List Frame
  expectation : Expectation

namespace Reading

def start : Reading := ⟨#[], [], .value⟩

/-- A value is complete: it goes into the innermost open collection, or is the document. -/
def complete (r : Reading) (v : Value) : Reading :=
  match r.frames with
  | [] => { r with expectation := .nothing v }
  | .list items :: outer =>
    { r with frames := .list (v :: items) :: outer, expectation := .separator }
  | .map entries key :: outer =>
    { r with frames := .map (Assoc.putBy Value.sameKey entries key v) key :: outer,
             expectation := .separator }

/-- The innermost collection is closed and becomes a node. -/
def close (r : Reading) (node : Node) (outer : List Frame) : Reading :=
  complete { r with nodes := r.nodes.push node, frames := outer } (.node r.nodes.size)

/-- One token, where a value may stand. -/
def takeValue (r : Reading) : Token → Except Fault Reading
  | .text s => .ok (r.complete (.text s))
  | .scalar v => .ok (r.complete v)
  | .beginList => .ok { r with frames := .list [] :: r.frames, expectation := .valueOrEnd }
  | .beginMap => .ok { r with frames := .map [] .null :: r.frames, expectation := .keyOrEnd }
  | .numberTooLong => .error .numberTooLong
  | _ => .error .malformed

/-- The end of the innermost collection. -/
def takeEnd (r : Reading) (t : Token) : Except Fault Reading :=
  match r.frames, t with
  | .list items :: outer, .endList => .ok (r.close (.list items.reverse) outer)
  | .map entries _ :: outer, .endMap => .ok (r.close (.map entries) outer)
  | _, _ => .error .malformed

/-- A key of the innermost mapping. -/
def takeKey (r : Reading) (t : Token) : Except Fault Reading :=
  match r.frames, t with
  | .map entries _ :: outer, .text s =>
    .ok { r with frames := .map entries (.text s) :: outer, expectation := .colon }
  | _, _ => .error .malformed

/-- One token. -/
def take (r : Reading) (t : Token) : Except Fault Reading :=
  match r.expectation with
  | .value => r.takeValue t
  | .valueOrEnd => if t = .endList then r.takeEnd t else r.takeValue t
  | .key => r.takeKey t
  | .keyOrEnd => if t = .endMap then r.takeEnd t else r.takeKey t
  | .colon => if t = .colon then .ok { r with expectation := .value } else .error .malformed
  | .separator =>
    if t = .comma then
      match r.frames with
      | .map _ _ :: _ => .ok { r with expectation := .key }
      | _ => .ok { r with expectation := .value }
    else r.takeEnd t
  | .nothing _ => .error .malformed

end Reading

/-- The document that a text holds. -/
def read (s : String) : Except Fault Data := do
  let r ← (tokens s.toList).foldlM Reading.take Reading.start
  match r.expectation with
  | .nothing root => pure ⟨⟨r.nodes⟩, root⟩
  | _ => throw .malformed

end TypedClient.Json
