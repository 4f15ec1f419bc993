import TypedClient.Yaml.Kind
import TypedClient.Yaml.Token

/-!
# `TypedClient.Yaml.Node`: the nodes that YAML text denotes

`documentNodes?` reads tokens by the grammar of YAML into numbered nodes. An alias is the
number of the node that its anchor names, which may be a node around the alias, so nodes
form a graph. One document is allowed.
-/

set_option autoImplicit false

namespace TypedClient.Yaml

/-- What a node holds: text, or the numbers of other nodes. -/
inductive Content where
  | scalar (text : String)
  | list (items : List Nat)
  | map (entries : List (Nat × Nat))
deriving DecidableEq, Inhabited

/-- A node of a document. -/
structure SourceNode where
  kind : Kind
  content : Content
deriving DecidableEq, Inhabited

/-- A document that is being read. -/
structure Composing where
  tokens : List Token
  nodes : Array SourceNode
  anchors : List (String × Nat)
  /-- The leads that tag handles stand for. -/
  handles : List (String × String)

/-- A step of reading a document. -/
abbrev Compose := StateT Composing (Except Fault)

namespace Compose

/-- The next token. -/
def peek : Compose Token := do
  match (← get).tokens.head?.getD .streamEnd with
  | .fault f => throw f
  | t => pure t

def skip : Compose Unit :=
  modify fun s => { s with tokens := s.tokens.drop 1 }

/-- The next token does not belong here. -/
def unexpected {α : Type} : Compose α := throw .malformed

/-- Take a token that has to come next. -/
def expect (t : Token) : Compose Unit := do
  if (← peek) = t then skip else unexpected

/-- Add a node. -/
def add (n : SourceNode) : Compose Nat := do
  let s ← get
  set { s with nodes := s.nodes.push n }
  pure s.nodes.size

/-- Fill a node that was added before its content was known. -/
def fill (id : Nat) (content : Content) : Compose Unit :=
  modify fun s => { s with nodes := s.nodes.modify id fun n => { n with content := content } }

/-- A node without text. -/
def emptyNode : Compose Nat :=
  add ⟨Kind.ofPlain "", .scalar ""⟩

/-- The anchor and the tag in front of a node, in either order. -/
structure Properties where
  anchor : Option String
  tag : Option String

/-- The name of a tag, its handle spelled out. -/
def tagName (handle : Option String) (suffix : String) : Compose String := do
  match handle with
  | none => pure suffix
  | some h => match (← get).handles.lookup h with
    | some lead => pure (lead ++ suffix)
    | none => throw .malformed

/-- The tag that comes next, if one does. -/
def takeTag : Compose (Option (Option String × String)) := do
  match ← peek with
  | .tag handle suffix => do
    skip
    pure (some (handle, suffix))
  | _ => pure none

/-- The anchor that comes next, if one does. -/
def takeAnchor : Compose (Option String) := do
  match ← peek with
  | .anchor name => do
    skip
    pure (some name)
  | _ => pure none

/-- The properties that come next. -/
def properties : Compose Properties := do
  let before ← takeAnchor
  let tag ← takeTag
  let after ← if before.isNone && tag.isSome then takeAnchor else pure none
  let name ← tag.mapM fun t => tagName t.1 t.2
  pure ⟨before.or after, name⟩

/-- Give a node the name of an anchor. A name is given once. -/
def nameNode (p : Properties) (id : Nat) : Compose Unit := do
  match p.anchor with
  | none => pure ()
  | some name =>
    if ((← get).anchors.lookup name).isSome then throw .malformed
    modify fun s => { s with anchors := (name, id) :: s.anchors }

/-- The kind of a node with a tag, or else the kind that its form suggests. The tag `!`
asks for the latter. -/
def kindOf (p : Properties) (suggested : Kind) : Kind :=
  match p.tag with
  | none => suggested
  | some "!" => suggested
  | some name => Kind.ofTag name

/-- Add a scalar. A text in quotes is text, unless the tag `!` asks how it looks. -/
def addScalar (p : Properties) (text : String) (plain : Bool) : Compose Nat := do
  let suggested := if plain || p.tag = some "!" then Kind.ofPlain text else .text
  let id ← add ⟨kindOf p suggested, .scalar text⟩
  nameNode p id
  pure id

/-- Add a collection before its content is read, so that its content can refer to it. -/
def addCollection (p : Properties) (kind : Kind) : Compose Nat := do
  let id ← add ⟨kindOf p kind, .scalar ""⟩
  nameNode p id
  pure id

/-- The entry before these tokens has no node. -/
def endsBlockEntry (indentless : Bool) (t : Token) : Bool :=
  t = .blockEntry || t = .blockEnd || (indentless && (t = .key || t = .value))

/-- The key or value before these tokens has no node. -/
def endsBlockPart (t : Token) : Bool := t = .key || t = .value || t = .blockEnd

mutual

/-- The node that comes next. Inside brackets only collections in brackets may come, and
a list without indentation of its own only as a part of a mapping. -/
def node (inBlock indentless : Bool) : (fuel : Nat) → Compose Nat
  | 0 => throw .malformed
  | fuel + 1 => do
    match ← peek with
    | .aliasOf name => do
      skip
      match (← get).anchors.lookup name with
      | some id => pure id
      | none => throw .malformed
    | _ => do
      let p ← properties
      let t ← peek
      match t with
      | .scalar text plain => do
        skip
        addScalar p text plain
      | .flowSequenceStart => do
        skip
        let id ← addCollection p .list
        fill id (.list (← flowItems true fuel))
        pure id
      | .flowMappingStart => do
        skip
        let id ← addCollection p .map
        fill id (.map (← flowEntries true fuel))
        pure id
      | _ =>
        if t = .blockEntry && indentless then do
          let id ← addCollection p .list
          fill id (.list (← blockItems true fuel))
          pure id
        else if t = .blockSequenceStart && inBlock then do
          skip
          let id ← addCollection p .list
          let items ← blockItems false fuel
          expect .blockEnd
          fill id (.list items)
          pure id
        else if t = .blockMappingStart && inBlock then do
          skip
          let id ← addCollection p .map
          fill id (.map (← blockEntries fuel))
          pure id
        -- An anchor or a tag alone is a node without text.
        else if p.anchor.isSome || p.tag.isSome then addScalar p "" true
        else unexpected

/-- The items of a list outside of brackets. -/
def blockItems (indentless : Bool) : (fuel : Nat) → Compose (List Nat)
  | 0 => throw .malformed
  | fuel + 1 => do
    if (← peek) = .blockEntry then do
      skip
      let item ← if endsBlockEntry indentless (← peek) then emptyNode else node true false fuel
      pure (item :: (← blockItems indentless fuel))
    else pure []

/-- The entries of a mapping outside of brackets, up to its end. -/
def blockEntries : (fuel : Nat) → Compose (List (Nat × Nat))
  | 0 => throw .malformed
  | fuel + 1 => do
    match ← peek with
    | .blockEnd => do
      skip
      pure []
    | .key => do
      skip
      let key ← if endsBlockPart (← peek) then emptyNode else node true true fuel
      let value ← blockValue fuel
      pure ((key, value) :: (← blockEntries fuel))
    | _ => unexpected

/-- The value of an entry outside of brackets. -/
def blockValue : (fuel : Nat) → Compose Nat
  | 0 => throw .malformed
  | fuel + 1 => do
    if (← peek) = .value then do
      skip
      if endsBlockPart (← peek) then emptyNode else node true true fuel
    else emptyNode

/-- The items of a list in brackets, up to its end. An item may be a single entry of a
mapping. -/
def flowItems (first : Bool) : (fuel : Nat) → Compose (List Nat)
  | 0 => throw .malformed
  | fuel + 1 => do
    if (← peek) = .flowSequenceEnd then do
      skip
      pure []
    else do
      if !first then expect .flowEntry
      match ← peek with
      | .flowSequenceEnd => do
        skip
        pure []
      | .key => do
        skip
        -- The mapping of a single entry has neither braces nor properties.
        let id ← add ⟨.map, .scalar ""⟩
        let t ← peek
        let key ← if t = .value || t = .flowEntry || t = .flowSequenceEnd then emptyNode
          else node false false fuel
        let value ← flowValue .flowSequenceEnd fuel
        fill id (.map [(key, value)])
        pure (id :: (← flowItems false fuel))
      | _ => do
        let item ← node false false fuel
        pure (item :: (← flowItems false fuel))

/-- The entries of a mapping in brackets, up to its end. A key may stand alone. -/
def flowEntries (first : Bool) : (fuel : Nat) → Compose (List (Nat × Nat))
  | 0 => throw .malformed
  | fuel + 1 => do
    if (← peek) = .flowMappingEnd then do
      skip
      pure []
    else do
      if !first then expect .flowEntry
      match ← peek with
      | .flowMappingEnd => do
        skip
        pure []
      | .key => do
        skip
        let t ← peek
        let key ← if t = .value || t = .flowEntry || t = .flowMappingEnd then emptyNode
          else node false false fuel
        let value ← flowValue .flowMappingEnd fuel
        pure ((key, value) :: (← flowEntries false fuel))
      | _ => do
        -- Without a key token there is no colon after the node.
        let key ← node false false fuel
        let value ← emptyNode
        pure ((key, value) :: (← flowEntries false fuel))

/-- The value of an entry in brackets that close with a token. -/
def flowValue (close : Token) : (fuel : Nat) → Compose Nat
  | 0 => throw .malformed
  | fuel + 1 => do
    if (← peek) = .value then do
      skip
      let t ← peek
      if t = .flowEntry || t = close then emptyNode else node false false fuel
    else emptyNode

end

/-- The leads of the handles that need no directive. -/
def standardHandles : List (String × String) := [("!", "!"), ("!!", standardLead)]

/-- The directives in front of a document. There is at most one version, which is 1, and
one lead for each handle. -/
def directives : (fuel : Nat) → (versioned : Bool) → (handles : List (String × String)) →
    Compose (List (String × String))
  | 0, _, handles => pure handles
  | fuel + 1, versioned, handles => do
    match ← peek with
    | .directive d => do
      skip
      match d with
      | .version major =>
        if versioned || major ≠ 1 then throw .malformed
        directives fuel true handles
      | .tagLead h lead =>
        if (handles.lookup h).isSome then throw .malformed
        directives fuel versioned ((h, lead) :: handles)
      | .other => directives fuel versioned handles
    | _ => pure handles

/-- Nothing may follow a document but end markers. The start of another one is read up to
its first marker before it is refused. -/
def finish : (fuel : Nat) → Compose Unit
  | 0 => unexpected
  | fuel + 1 => do
    match ← peek with
    | .documentEnd => do
      skip
      finish fuel
    | .streamEnd => pure ()
    | _ => do
      let _ ← directives fuel false []
      let _ ← peek
      unexpected

/-- The number of the root of the document, if there is a document. -/
def document (fuel : Nat) : Compose (Option Nat) := do
  match ← peek with
  | .streamEnd => pure none
  | .directive _ | .documentStart => do
    let handles ← directives fuel false []
    expect .documentStart
    -- A directive may give a standard handle another lead.
    modify fun s => { s with handles := handles ++ standardHandles }
    let root ← match ← peek with
      | .directive _ | .documentStart | .documentEnd | .streamEnd => emptyNode
      | _ => node true false fuel
    finish fuel
    pure (some root)
  | _ => do
    let root ← node true false fuel
    finish fuel
    pure (some root)

end Compose

/-- The nodes that tokens denote and the number of the root, if there is a document. Each
step of reading takes a token or ends a collection, so steps are few per token. -/
def documentNodes? (tokens : List Token) : Except Fault (Option Nat × Array SourceNode) := do
  let (root, s) ← (Compose.document (4 * tokens.length + 16)).run
    ⟨tokens, #[], [], Compose.standardHandles⟩
  pure (root, s.nodes)

end TypedClient.Yaml
