import TypedClient.Assoc
import TypedClient.Calendar
import TypedClient.Decimal.Binary64

/-!
# `TypedClient.Value.Basic`: the values of a document

A document is a graph: lists, mappings, sets and pairs are nodes with a number, and a
value is a scalar or the number of a node. Two places of a document can hold one node,
and a node can hold itself, both of which aliases allow.

* `Value.sameKey`: the equality of mapping keys. Numbers and booleans are compared by
  what they amount to, so `true`, `1` and `1.0` are one key; NaN equals nothing.
* `Graph.entries?`, `Graph.items?`: the content of a value that is a mapping or a list.
* `Graph.truthy`: everything but null, false, zero and what is empty.
-/

set_option autoImplicit false

namespace TypedClient

/-- A scalar, or the number of the node that holds a collection. -/
inductive Value where
  | null
  | bool (b : Bool)
  | int (i : Int)
  | float (x : Binary64)
  | text (s : String)
  | date (d : Date)
  | timestamp (t : Timestamp)
  | bytes (bs : List UInt8)
  | node (id : Nat)
deriving DecidableEq, Inhabited

/-- The content of a node. -/
inductive Node where
  | list (items : List Value)
  | map (entries : List (Value × Value))
  | set (members : List Value)
  | pair (first second : Value)
deriving DecidableEq, Inhabited

namespace Value

/-- The integer that a boolean or an integer amounts to. -/
def integer? : Value → Option Int
  | bool b => some (if b then 1 else 0)
  | int i => some i
  | _ => none

/-- The two values are one key of a mapping. -/
def sameKey : Value → Value → Bool
  | null, null => true
  | text s, text t => s == t
  | date d, date e => d = e
  | timestamp t, timestamp u => t.same u
  | bytes bs, bytes cs => bs == cs
  | float x, float y => x.sameNumber y
  | float x, v => (v.integer?).any x.equalsInt
  | v, float x => (v.integer?).any x.equalsInt
  | v, w => match v.integer?, w.integer? with
    | some i, some j => i = j
    | _, _ => false

/-- The text of a value that is one. -/
def text? : Value → Option String
  | text s => some s
  | _ => none

end Value

/-- The nodes of a document by their numbers. -/
structure Graph where
  nodes : Array Node
deriving Inhabited

namespace Graph

/-- The entries of a value that is a mapping. -/
def entries? (g : Graph) : Value → Option (List (Value × Value))
  | .node id => match g.nodes[id]? with
    | some (.map entries) => some entries
    | _ => none
  | _ => none

/-- The items of a value that is a list. -/
def items? (g : Graph) : Value → Option (List Value)
  | .node id => match g.nodes[id]? with
    | some (.list items) => some items
    | _ => none
  | _ => none

def isMapping (g : Graph) (v : Value) : Bool := (g.entries? v).isSome

/-- The value counts as true: it is not null, false, zero or empty. -/
def truthy (g : Graph) : Value → Bool
  | .null => false
  | .bool b => b
  | .int i => i ≠ 0
  | .float x => !x.isZero
  | .text s => !s.isEmpty
  | .bytes bs => !bs.isEmpty
  | .date _ => true
  | .timestamp _ => true
  | .node id => match g.nodes[id]? with
    | some (.list items) => !items.isEmpty
    | some (.map entries) => !entries.isEmpty
    | some (.set members) => !members.isEmpty
    | some (.pair _ _) => true
    | none => false

end Graph

/-- The value under a text key, if there is one. -/
def lookupKey (entries : List (Value × Value)) (key : String) : Option Value :=
  (entries.find? fun e => e.1 = .text key).map Prod.snd

/-- The value under a text key, null if there is none. -/
def lookupOrNull (entries : List (Value × Value)) (key : String) : Value :=
  (lookupKey entries key).getD .null

/-- A document: a value and the graph that it lives in. -/
structure Data where
  graph : Graph
  root : Value
deriving Inhabited

end TypedClient
