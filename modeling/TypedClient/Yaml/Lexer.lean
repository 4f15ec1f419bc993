import TypedClient.Yaml.Block
import TypedClient.Yaml.Plain
import TypedClient.Yaml.Tag

/-!
# `TypedClient.Yaml.Lexer`: cutting YAML text into tokens

Indentation opens and closes block collections. A key without a question mark shows only
by the colon after it, so a token that may start a key is remembered until its line ends,
and a colon puts the tokens for the key in front of it. Such a key has at most 1024
characters and stands on one line.

The lexer reads the whole text. Where no token can be read the list ends with
`Token.fault`, which takes the place of the tokens that a key may still have started with:
nobody could have seen these without reading on.
-/

set_option autoImplicit false

namespace TypedClient.Yaml

/-- A place where a key may have started. -/
structure KeyStart where
  /-- The level of brackets. -/
  level : Nat
  /-- The number of tokens before the key. -/
  position : Nat
  /-- A key must start here, for nothing else may stand at this indentation. -/
  required : Bool
  index : Nat
  line : Nat
  column : Nat

/-- How far the lexer has come. -/
structure Lexing where
  cursor : Cursor
  tokens : Array Token
  /-- The level of brackets. -/
  level : Nat
  /-- The column of the innermost block collection, -1 outside of all. -/
  indent : Int
  /-- The columns of the block collections around the innermost one. -/
  outer : List Int
  /-- A key may start here. -/
  keyAllowed : Bool
  /-- The places where a key may have started, at most one for each level. -/
  keys : List KeyStart

namespace Lexing

def start (cs : List Char) : Lexing := ⟨.start cs, #[], 0, -1, [], true, []⟩

def emit (s : Lexing) (t : Token) : Lexing := { s with tokens := s.tokens.push t }

/-- Emit a token that ends at the cursor. -/
def emitAt (s : Lexing) (t : Token) (c : Cursor) : Lexing :=
  { s with tokens := s.tokens.push t, cursor := c }

/-- Blanks, comments and line breaks before the next token. Outside of brackets a new
line may start with a key. -/
def skipBlanksWithin : (fuel : Nat) → Lexing → Lexing
  | 0, s => s
  | fuel + 1, s =>
    let c := s.cursor.skipWhile (· = ' ')
    let c := if c.head = some '#' then c.skipWhile (!isBreak ·) else c
    match c.lineBreak with
    | ([], c) => { s with cursor := c }
    | (_, c) => skipBlanksWithin fuel
        { s with cursor := c, keyAllowed := s.keyAllowed || s.level = 0 }

/-- Blanks before the next token; a byte order mark may start the text. -/
def skipBlanks (s : Lexing) : Lexing :=
  let c := s.cursor
  let c := if c.index = 0 && c.head = some '\ufeff' then c.next else c
  skipBlanksWithin (c.rest.length + 1) { s with cursor := c }

/-- The key can no longer be completed at the cursor. -/
def isStale (s : Lexing) (k : KeyStart) : Bool :=
  k.line ≠ s.cursor.line || 1024 < s.cursor.index - k.index

/-- Forget the keys that can no longer be completed. -/
def dropStaleKeys (s : Lexing) : Except Fault Lexing :=
  if s.keys.any fun k => s.isStale k && k.required then .error .malformed
  else .ok { s with keys := s.keys.filter (!s.isStale ·) }

/-- Forget the key of the current level. -/
def dropKey (s : Lexing) : Except Fault Lexing :=
  if s.keys.any fun k => k.level = s.level && k.required then .error .malformed
  else .ok { s with keys := s.keys.filter (·.level ≠ s.level) }

/-- The next token may start a key. -/
def markKey (s : Lexing) : Except Fault Lexing :=
  if s.keyAllowed then do
    let s ← s.dropKey
    -- Outside of brackets, at the column of its collection, only a key may stand.
    let k : KeyStart :=
      ⟨s.level, s.tokens.size, s.level = 0 && s.indent = s.cursor.column,
       s.cursor.index, s.cursor.line, s.cursor.column⟩
    pure { s with keys := k :: s.keys }
  else .ok s

/-- Close the block collections indented more deeply than a column. -/
def closeBlocksWithin (column : Int) : (outer : List Int) → Lexing → Lexing
  | [], s => s
  | i :: outer, s =>
    if column < s.indent then
      closeBlocksWithin column outer { s.emit .blockEnd with indent := i, outer := outer }
    else s

/-- Close the block collections indented more deeply than a column. Inside brackets
indentation means nothing. -/
def closeBlocks (column : Int) (s : Lexing) : Lexing :=
  if s.level = 0 then closeBlocksWithin column s.outer s else s

/-- Open a block collection at a column, if it is deeper than the innermost one: its
token goes to a position among the tokens. -/
def openBlock (s : Lexing) (column : Nat) (position : Nat) (t : Token) : Lexing :=
  if s.indent < column then
    { s with
      indent := column
      outer := s.indent :: s.outer
      tokens := s.tokens.insertIdxIfInBounds position t }
  else s

/-- The end of the text. -/
def finish (s : Lexing) : Except Fault Lexing := do
  let s ← (s.closeBlocks (-1)).dropKey
  pure (s.emit .streamEnd)

/-- A directive or a document marker ends all block collections. -/
def atDocumentLevel (s : Lexing) : Except Fault Lexing := do
  let s ← (s.closeBlocks (-1)).dropKey
  pure { s with keyAllowed := false }

def documentMarker (s : Lexing) (t : Token) : Except Fault Lexing := do
  let s ← s.atDocumentLevel
  pure (s.emitAt t (s.cursor.skip 3))

def openFlow (s : Lexing) (t : Token) : Except Fault Lexing := do
  let s ← s.markKey
  pure { s.emitAt t s.cursor.next with level := s.level + 1, keyAllowed := true }

/-- A closing bracket; one that closes nothing is no token. -/
def closeFlow (s : Lexing) (t : Token) : Except Fault Lexing := do
  let s ← s.dropKey
  if s.level = 0 then throw .malformed
  pure { s.emitAt t s.cursor.next with level := s.level - 1, keyAllowed := false }

def flowEntry (s : Lexing) : Except Fault Lexing := do
  let s ← s.dropKey
  pure { s.emitAt .flowEntry s.cursor.next with keyAllowed := true }

/-- The indicator of an entry or a key of a block collection opens the collection, and
may only stand where a key may. -/
def blockIndicator (s : Lexing) (collection : Token) : Except Fault Lexing :=
  if s.level ≠ 0 then .ok s
  else if s.keyAllowed then .ok (s.openBlock s.cursor.column s.tokens.size collection)
  else .error .malformed

def blockEntry (s : Lexing) : Except Fault Lexing := do
  let s ← s.blockIndicator .blockSequenceStart
  let s ← { s with keyAllowed := true }.dropKey
  pure (s.emitAt .blockEntry s.cursor.next)

def key (s : Lexing) : Except Fault Lexing := do
  let s ← s.blockIndicator .blockMappingStart
  let s ← { s with keyAllowed := s.level = 0 }.dropKey
  pure (s.emitAt .key s.cursor.next)

/-- A colon. If a key may have started on this level, it did, and its tokens are put in
front of it. -/
def value (s : Lexing) : Except Fault Lexing :=
  match s.keys.find? (·.level = s.level) with
  | some k =>
    -- The start of the collection goes to the same position afterwards, so it comes to
    -- stand before the key.
    let s := { s with
      keys := s.keys.filter (·.level ≠ s.level)
      tokens := s.tokens.insertIdxIfInBounds k.position .key
      keyAllowed := false }
    let s := if s.level = 0 then s.openBlock k.column k.position .blockMappingStart else s
    .ok (s.emitAt .value s.cursor.next)
  | none => do
    -- The key is missing, or a question mark stands before it.
    let s ← s.blockIndicator .blockMappingStart
    let s ← { s with keyAllowed := s.level = 0 }.dropKey
    pure (s.emitAt .value s.cursor.next)

/-- A token that may be a key, or its start. -/
def keyLike (s : Lexing) (t : Token) (c : Cursor) : Except Fault Lexing := do
  let s ← s.markKey
  pure { s.emitAt t c with keyAllowed := false }

def blockText (s : Lexing) (folded : Bool) : Except Fault Lexing := do
  let s ← { s with keyAllowed := true }.dropKey
  -- Such a text is never a key.
  let (text, c) ← blockScalar folded s.indent s.cursor
  pure (s.emitAt (.scalar (String.ofList text) false) c)

def quotedText (s : Lexing) (double : Bool) : Except Fault Lexing := do
  let s ← s.markKey
  let (text, c) ← quotedScalar double s.cursor
  pure { s.emitAt (.scalar (String.ofList text) false) c with keyAllowed := false }

def plainText (s : Lexing) : Except Fault Lexing := do
  let s ← s.markKey
  -- A text that ends with its line leaves the next token at a place for keys.
  let (text, crossesLine, c) := plainScalar (s.level ≠ 0) (s.indent + 1) s.cursor
  pure { s.emitAt (.scalar (String.ofList text) true) c with keyAllowed := crossesLine }

/-- Three characters stand at the start of a line as a word. -/
def hasMarker (s : Lexing) (x : Char) : Bool :=
  s.cursor.column = 0 && s.cursor.rest.take 3 = [x, x, x] && endsWord (s.cursor.peek 3)

/-- A plain scalar may start with a character, given the character after it. -/
def startsPlain (s : Lexing) (x : Char) : Bool :=
  !(endsWord (some x) || "-?:,[]\x7b\x7d#&*!|>'\"%@`".toList.contains x) ||
  (!endsWord (s.cursor.peek 1) && (x = '-' || (s.level = 0 && (x = '?' || x = ':'))))

/-- The token that starts with a character. -/
def takeToken (s : Lexing) (x : Char) : Except Fault Lexing :=
  let atWordEnd := endsWord (s.cursor.peek 1)
  if x = '%' && s.cursor.column = 0 then do
    let s ← s.atDocumentLevel
    let (t, c) ← directive s.cursor
    pure (s.emitAt t c)
  -- Three dashes also begin like an entry, so they are looked for first.
  else if s.hasMarker '-' then s.documentMarker .documentStart
  else if s.hasMarker '.' then s.documentMarker .documentEnd
  else if x = '[' then s.openFlow .flowSequenceStart
  else if x = '\x7b' then s.openFlow .flowMappingStart
  else if x = ']' then s.closeFlow .flowSequenceEnd
  else if x = '\x7d' then s.closeFlow .flowMappingEnd
  else if x = ',' then s.flowEntry
  -- These three are indicators only as words of their own, a plain text otherwise.
  else if x = '-' && atWordEnd then s.blockEntry
  else if x = '?' && (s.level ≠ 0 || atWordEnd) then s.key
  else if x = ':' && (s.level ≠ 0 || atWordEnd) then s.value
  else if x = '*' then do
    let (name, c) ← anchorName s.cursor
    s.keyLike (.aliasOf name) c
  else if x = '&' then do
    let (name, c) ← anchorName s.cursor
    s.keyLike (.anchor name) c
  else if x = '!' then do
    let (t, c) ← tag s.cursor
    s.keyLike t c
  else if x = '|' && s.level = 0 then s.blockText false
  else if x = '>' && s.level = 0 then s.blockText true
  else if x = '\'' then s.quotedText false
  else if x = '\"' then s.quotedText true
  else if s.startsPlain x then s.plainText
  else .error .malformed

/-- The number of tokens that no key can be put in front of any more. -/
def settled (s : Lexing) : Nat :=
  (s.keys.filter (!s.isStale ·)).foldl (fun n k => min n k.position) s.tokens.size

/-- The tokens up to a fault that is met after the settled ones. -/
def failWith (s : Lexing) (f : Fault) : Array Token :=
  (s.tokens.take s.settled).push (.fault f)

/-- The tokens of a text of at most `fuel` characters, from here on. -/
def run : (fuel : Nat) → Lexing → Array Token
  | 0, s => s.tokens
  | fuel + 1, s =>
    match s.skipBlanks.dropStaleKeys with
    | .error f => s.failWith f
    | .ok t =>
      let t := t.closeBlocks t.cursor.column
      match t.cursor.head with
      | none => match t.finish with
        | .ok t => t.tokens
        | .error f => s.failWith f
      | some x => match t.takeToken x with
        | .ok t => run fuel t
        | .error f => s.failWith f

end Lexing

/-- A character that may stand in YAML text. -/
def isAllowed (c : Char) : Bool :=
  c = '\t' || c = '\n' || c = '\r' || (' ' ≤ c && c ≤ '~') || c = '\u0085' ||
  ('\u00a0' ≤ c && c ≤ '\ud7ff') || ('\ue000' ≤ c && c ≤ '\ufffd') || 0x10000 ≤ c.toNat

/-- The tokens of a text. A text with a character that YAML does not allow has none. -/
def tokens (cs : List Char) : List Token :=
  if cs.all isAllowed then ((Lexing.start cs).run (cs.length + 2)).toList
  else [.fault .malformed]

end TypedClient.Yaml
