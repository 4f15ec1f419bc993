import TypedClient.Value.SetOrder
import TypedClient.Yaml.Lexer
import TypedClient.Yaml.Node
import TypedClient.Yaml.Scalar

/-!
# `TypedClient.Yaml.Reader`: documents written in YAML

The nodes of a document become a graph of values. Collections are visited in the order in
which they are met, the entries of one before what they hold; scalars get their values when
they are met first and keep them, so the first fault in that order decides what is wrong with
a document.

A merge key brings the entries of other mappings into a mapping, in front of its own, so
its own prevail. A key `=` gives the text of a mapping that is asked for text. A set is
written as a mapping whose values do not matter, and a list of pairs as a list of mappings
of one entry.
-/

set_option autoImplicit false

namespace TypedClient.Yaml

/-- The source of a document whose mappings are being merged. -/
abbrev Sources := Array SourceNode

/-- The entries of a mapping. -/
def entriesOf (s : Sources) (id : Nat) : Option (List (Nat × Nat)) :=
  match s[id]? with
  | some ⟨_, .map entries⟩ => some entries
  | _ => none

def kindAt (s : Sources) (id : Nat) : Kind :=
  (s[id]?.map SourceNode.kind).getD .foreign

def setEntries (s : Sources) (id : Nat) (entries : List (Nat × Nat)) : Sources :=
  s.modify id fun n => { n with content := .map entries }

/-- The keys up to a merge key are passed by; a key `=` among them is text from now on. -/
def passKeys (s : Sources) (keys : List Nat) : Sources :=
  keys.foldl (fun s k =>
    if kindAt s k = .defaultValue then s.modify k fun n => { n with kind := .text } else s) s

/-- The place of the first merge key among entries, from a place on. -/
def mergePlace? (s : Sources) (entries : List (Nat × Nat)) (start : Nat) : Option Nat :=
  ((entries.drop start).findIdx? fun e => kindAt s e.1 = .merge).map (· + start)

mutual

/-- Resolve the merge keys of a mapping from a place on; `merged` are the entries that
merge keys before it brought. Every call but the first has one merge key less to meet in
the whole document, which bounds them. -/
def flattenFrom (id start : Nat) (merged : List (Nat × Nat)) :
    (fuel : Nat) → Sources → Except Fault Sources
  | 0, _ => .error .malformed
  | fuel + 1, s => do
    let entries := (entriesOf s id).getD []
    match mergePlace? s entries start with
    | none =>
      let s := passKeys s ((entries.drop start).map Prod.fst)
      pure (if merged.isEmpty then s else setEntries s id (merged ++ entries))
    | some place =>
      let s := passKeys s (((entries.drop start).take (place - start)).map Prod.fst)
      match entries[place]? with
      | none => throw .malformed
      | some (_, source) =>
        -- The key goes before its source is resolved, so a mapping that merges itself
        -- meets it only once.
        let s := setEntries s id (entries.eraseIdx place)
        match s[source]?.map SourceNode.content with
        | some (.map _) => do
          let s ← flattenFrom source 0 [] fuel s
          flattenFrom id place (merged ++ (entriesOf s source).getD []) fuel s
        | some (.list items) => do
          let (s, parts) ← flattenAll items fuel s
          -- The first of several sources prevails, so it comes last.
          flattenFrom id place (merged ++ parts.reverse.flatten) fuel s
        | _ => throw .malformed

/-- Resolve the merge keys of mappings, and collect the entries of each. -/
def flattenAll (ids : List Nat) :
    (fuel : Nat) → Sources → Except Fault (Sources × List (List (Nat × Nat)))
  | 0, _ => .error .malformed
  | fuel + 1, s => match ids with
    | [] => .ok (s, [])
    | id :: rest => do
      if (entriesOf s id).isNone then throw .malformed
      let s ← flattenFrom id 0 [] fuel s
      let entries := (entriesOf s id).getD []
      let (s, parts) ← flattenAll rest fuel s
      pure (s, entries :: parts)

end

/-- The number of steps that resolving all merge keys may take: each key has to be met,
and behind each key a list may have to be walked. -/
def mergeFuel (s : Sources) : Nat :=
  let entries := s.foldl (fun n node => n + match node.content with
    | .map entries => entries.length
    | _ => 0) 2
  let items := s.foldl (fun n node => n + match node.content with
    | .list items => items.length
    | _ => 0) 2
  entries * items

/-- The text of a scalar, or of the default value of a mapping. A mapping may be its own default
value, by an alias. So the search is bounded by the number of nodes, and a search that does not
end in so many steps never ends. -/
def textOf (s : Sources) : (fuel : Nat) → Nat → Except Fault String
  | 0, _ => .error (.defect .endlessRecursion)
  | fuel + 1, id => match s[id]?.map SourceNode.content with
    | some (.scalar text) => .ok text
    | some (.map entries) =>
      match entries.find? fun e => kindAt s e.1 = .defaultValue with
      | some (_, v) => textOf s fuel v
      | none => .error .malformed
    | _ => .error .malformed

/-- The value of a node, a collection being its number. -/
def valueOf (s : Sources) (id : Nat) : Except Fault Value := do
  let text := textOf s (s.size + 1) id
  match kindAt s id with
  | .list | .map | .set | .pairs => pure (.node id)
  | .null => do
    let _ ← text
    pure .null
  | .bool => boolValue (← text)
  | .int => intValue (← text)
  | .float => floatValue (← text)
  | .text => do pure (.text (← text))
  | .binary => binaryValue (← text)
  | .timestamp => do
    let t ← text
    if (entriesOf s id).isSome then throw (.defect .timestampNotText)
    timestampValue t
  | .merge | .defaultValue | .foreign => throw .malformed

/-- The value of a node as a key of a mapping. NaN is told apart by the node that it was read
from, unless it is the NaN that has a word of its own. -/
structure Key where
  value : Value
  nanSource : Option Nat

/-- The two keys are one. -/
def Key.same (k l : Key) : Bool :=
  match k.value, l.value with
  | .float x, .float y =>
    if x.isNaN && y.isNaN then k.nanSource = l.nanSource else x.sameNumber y
  | v, w => v.sameKey w

/-- The collection that the value is. -/
def Key.collection? (k : Key) : Option Nat :=
  match k.value with
  | .node id => some id
  | _ => none

/-- The key that a node stands for. -/
def keyOf (s : Sources) (id : Nat) : Except Fault Key := do
  let value ← valueOf s id
  match value with
  | .float _ => do
    let text ← textOf s (s.size + 1) id
    pure ⟨value, if isNaNWord text then none else some id⟩
  | _ => pure ⟨value, none⟩

/-- The entries of a mapping with no two of one key. -/
def tableOf (entries : List (Key × Value)) : List (Value × Value) :=
  (entries.foldl (fun t e => Assoc.putBy Key.same t e.1 e.2) []).map fun e => (e.1.value, e.2)

/-- A document that is being turned into a graph. -/
structure Building where
  sources : Sources
  /-- The nodes of the sources by their numbers, and further ones for pairs. -/
  nodes : Array TypedClient.Node
  /-- The values of the nodes that have been met. -/
  made : Array (Option Key)
  /-- The collections that have been met and are still to be turned into nodes. -/
  queue : List Nat

namespace Building

/-- Put a node in the place of a collection. -/
def place (b : Building) (id : Nat) (n : TypedClient.Node) : Building :=
  { b with nodes := b.nodes.setIfInBounds id n }

/-- Put a list of pairs in the place of a collection. The pairs get numbers of their own. -/
def placePairs (b : Building) (id : Nat) (pairs : List (Value × Value)) : Building :=
  let items := (List.range pairs.length).map fun k => Value.node (b.nodes.size + k)
  let nodes := b.nodes ++ (pairs.map fun p => TypedClient.Node.pair p.1 p.2).toArray
  place { b with nodes } id (.list items)

/-- Keep the value of a node that has been met. -/
def keep (b : Building) (id : Nat) (key : Key) : Building :=
  { b with
    made := b.made.setIfInBounds id (some key)
    queue := b.queue ++ key.collection?.toList }

end Building

/-- A step of turning a document into a graph. -/
abbrev Build := StateT Building (Except Fault)

/-- The value of a node, made when the node is met first. What is merged into a mapping later on
does not change the text that it stood for then. -/
def make (id : Nat) : Build Key := do
  let b ← get
  match b.made[id]?.join with
  | some key => pure key
  | none =>
    let key ← keyOf b.sources id
    set (b.keep id key)
    pure key

/-- Values of nodes. -/
def makeValues (ids : List Nat) : Build (List Value) :=
  ids.mapM fun id => Key.value <$> make id

/-- The entries of a mapping as keys and values, in order. A collection cannot be a key. -/
def makeEntries : List (Nat × Nat) → Build (List (Key × Value))
  | [] => pure []
  | (k, v) :: rest => do
    let key ← make k
    if key.collection?.isSome then throw .malformed
    let value ← make v
    pure ((key, value.value) :: (← makeEntries rest))

/-- The pairs that nodes stand for, each of which is a mapping of one entry. -/
def makePairs : List Nat → Build (List (Value × Value))
  | [] => pure []
  | id :: rest => do
    match entriesOf (← get).sources id with
    | some [(k, v)] => do
      let first ← make k
      let second ← make v
      pure ((first.value, second.value) :: (← makePairs rest))
    | _ => throw .malformed

/-- Turn one collection into a node of the graph. -/
def buildNode (id : Nat) : Build Unit := do
  let s := (← get).sources
  match kindAt s id, s[id]?.map SourceNode.content with
  | .list, some (.list items) => do
    let vs ← makeValues items
    modify fun b => b.place id (.list vs)
  | .pairs, some (.list items) => do
    let pairs ← makePairs items
    modify fun b => b.placePairs id pairs
  | kind, some (.map _) => do
    if kind ≠ .map && kind ≠ .set then throw .malformed
    let s ← flattenFrom id 0 [] (mergeFuel s) s
    modify fun b => { b with sources := s }
    let table := tableOf (← makeEntries ((entriesOf s id).getD []))
    let node := if kind = .set then .set (listed (table.map Prod.fst)) else .map table
    modify fun b => b.place id node
  | _, _ => throw .malformed

/-- Turn the collections of the queue, and those that they hold, into nodes. Each is turned
once, so there are at most as many steps as nodes. -/
def buildAll : (fuel : Nat) → Build Unit
  | 0 => pure ()
  | fuel + 1 => do
    let b ← get
    match b.queue with
    | [] => pure ()
    | id :: queue => do
      set { b with queue }
      buildNode id
      buildAll fuel

/-- A reader of YAML: the value that a text holds, or what keeps it from holding one. -/
abbrev Reader := String → Except Fault Data

/-- The document that a text holds; a text without one holds null. -/
def read : Reader := fun text => do
  let (root?, sources) ← documentNodes? (tokens text.toList)
  match root? with
  | none => pure ⟨⟨#[]⟩, .null⟩
  | some root =>
    let blank : Array TypedClient.Node := Array.replicate sources.size (.list [])
    let start : Building := ⟨sources, blank, Array.replicate sources.size none, []⟩
    let (key, b) ← StateT.run (do
      let key ← make root
      buildAll (sources.size + 1)
      pure key) start
    pure ⟨⟨b.nodes⟩, key.value⟩

end TypedClient.Yaml
