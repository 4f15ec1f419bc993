import TypedClient.Failure

/-!
# `TypedClient.Yaml.Cursor`: a place in YAML text

A cursor holds the text that is still to be read and where it stands: its index, its line
and its column. Carriage returns have been turned into line feeds before; the other line
breaks are U+0085, U+2028 and U+2029. A byte order mark takes up no column.
-/

set_option autoImplicit false

namespace TypedClient.Yaml

/-- Why a text is no document. -/
inductive Fault where
  | malformed
  /-- The text is well formed but holds a scalar that denotes no value. -/
  | defect (d : Defect)
deriving DecidableEq

/-- A character that ends a line. -/
def isBreak (c : Char) : Bool :=
  c = '\n' || c = '\u0085' || c = '\u2028' || c = '\u2029'

/-- A space or a tab. -/
def isSpaceOrTab (c : Char) : Bool := c = ' ' || c = '\t'

/-- The line ends here. -/
def endsLine (c : Option Char) : Bool := c.all isBreak

/-- The line ends here, or a space follows. -/
def endsLineOrSpace (c : Option Char) : Bool := c.all fun c => c = ' ' || isBreak c

/-- The line ends here, or a space or a tab follows. -/
def endsWord (c : Option Char) : Bool := c.all fun c => isSpaceOrTab c || isBreak c

/-- A character of names of anchors, directives and tag handles. -/
def isWordChar (c : Char) : Bool :=
  c.isAlphanum || c = '-' || c = '_'

/-- A place in a text. -/
structure Cursor where
  rest : List Char
  index : Nat
  line : Nat
  column : Nat
deriving Inhabited

namespace Cursor

def start (cs : List Char) : Cursor := ⟨cs, 0, 0, 0⟩

/-- The character `k` places ahead. -/
def peek (c : Cursor) (k : Nat) : Option Char := c.rest[k]?

/-- The character at the cursor. -/
def head (c : Cursor) : Option Char := c.rest.head?

/-- The place after one character. -/
def next (c : Cursor) : Cursor :=
  match c.rest with
  | [] => c
  | x :: rest =>
    if isBreak x then ⟨rest, c.index + 1, c.line + 1, 0⟩
    else if x = '\ufeff' then ⟨rest, c.index + 1, c.line, c.column⟩
    else ⟨rest, c.index + 1, c.line, c.column + 1⟩

/-- The place after `n` characters. -/
def skip : (n : Nat) → Cursor → Cursor
  | 0, c => c
  | n + 1, c => skip n c.next

/-- The characters from here on that pass a test, and the place after them. -/
def takeWhile (p : Char → Bool) (c : Cursor) : List Char × Cursor :=
  let cs := c.rest.takeWhile p
  (cs, c.skip cs.length)

/-- The place after the characters that pass a test. -/
def skipWhile (p : Char → Bool) (c : Cursor) : Cursor :=
  (c.takeWhile p).2

/-- The line break at the cursor as it counts in text, and the place after it. -/
def lineBreak (c : Cursor) : List Char × Cursor :=
  match c.head with
  | some x =>
    if x = '\n' || x = '\u0085' then (['\n'], c.next)
    else if isBreak x then ([x], c.next)
    else ([], c)
  | none => ([], c)

/-- Three dashes or three dots stand here as a word of their own. -/
def atMarker (c : Cursor) : Bool :=
  (c.rest.take 3 = ['-', '-', '-'] || c.rest.take 3 = ['.', '.', '.']) && endsWord (c.peek 3)

/-- Spaces and a comment up to the end of the line, and the line break. -/
def finishLine (c : Cursor) : Except Fault Cursor :=
  let c := c.skipWhile (· = ' ')
  let c := if c.head = some '#' then c.skipWhile (!isBreak ·) else c
  if endsLine c.head then .ok c.lineBreak.2 else .error .malformed

end Cursor

end TypedClient.Yaml
