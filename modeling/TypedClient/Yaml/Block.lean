import TypedClient.Yaml.Cursor

/-!
# `TypedClient.Yaml.Block`: literal and folded block scalars

A header gives the chomping of final line breaks and, if the first line cannot show it,
the indentation. A literal scalar keeps its line breaks. A folded one turns a break
between two lines into a space, unless one of them starts with a blank.
-/

set_option autoImplicit false

namespace TypedClient.Yaml

/-- What becomes of the line breaks at the end of a block scalar. -/
inductive Chomping where
  | strip
  | clip
  | keep
deriving DecidableEq

/-- The chomping indicator at the cursor. -/
def chomping? (c : Cursor) : Option Chomping :=
  if c.head = some '+' then some .keep
  else if c.head = some '-' then some .strip
  else none

/-- The indentation indicator at the cursor: a digit, which may not be zero. -/
def increment? (c : Cursor) : Except Fault (Option Nat) :=
  match c.head with
  | some d =>
    if d = '0' then .error .malformed
    else .ok (if d.isDigit then some (d.toNat - '0'.toNat) else none)
  | none => .ok none

/-- The indicators after the character that starts a block scalar, in either order. -/
def blockHeader (c : Cursor) : Except Fault (Chomping × Option Nat × Cursor) := do
  let (chomping, increment, c) ← match chomping? c with
    | some chomping => do
      let increment ← increment? c.next
      pure (chomping, increment, if increment.isSome then c.next.next else c.next)
    | none => do
      match ← increment? c with
      | none => pure (.clip, none, c)
      | some n => match chomping? c.next with
        | some chomping => pure (chomping, some n, c.next.next)
        | none => pure (.clip, some n, c.next)
  if endsLineOrSpace c.head then
    pure (chomping, increment, ← c.finishLine)
  else throw .malformed

/-- The breaks of the blank lines from here on, the place after them, and the largest
column that spaces reached on the way. -/
def leadingBreaks : (fuel : Nat) → (widest : Nat) → Cursor → List Char × Nat × Cursor
  | 0, widest, c => ([], widest, c)
  | fuel + 1, widest, c =>
    if c.head = some ' ' then
      leadingBreaks fuel (max widest c.next.column) c.next
    else match c.lineBreak with
      | ([], c) => ([], widest, c)
      | (b, c) =>
        let (bs, widest, c) := leadingBreaks fuel widest c
        (b ++ bs, widest, c)

/-- The place after the spaces from here on, up to a column. -/
def indentTo (indent : Nat) (c : Cursor) : Cursor :=
  c.skip ((c.rest.take (indent - c.column)).takeWhile (· = ' ')).length

/-- The breaks of the blank lines from here on, spaces up to the indentation skipped, and
the place after them. -/
def blockBreaks (indent : Nat) : (fuel : Nat) → Cursor → List Char × Cursor
  | 0, c => ([], c)
  | fuel + 1, c =>
    let c := indentTo indent c
    match c.lineBreak with
    | ([], c) => ([], c)
    | (b, c) =>
      let (bs, c) := blockBreaks indent fuel c
      (b ++ bs, c)

/-- The lines of a block scalar. `breaks` are the breaks of the blank lines before the
cursor. The result is the text without its end, its last break, and the breaks after. -/
def blockLines (folded : Bool) (indent : Nat) :
    (fuel : Nat) → (breaks : List Char) → Cursor → List Char × List Char × List Char × Cursor
  | 0, breaks, c => ([], [], breaks, c)
  | fuel + 1, breaks, c =>
    if c.column = indent && c.head.isSome then
      let startsBlank := c.head.any isSpaceOrTab
      let (text, c) := c.takeWhile (!isBreak ·)
      let (lineEnd, c) := c.lineBreak
      let (later, c) := blockBreaks indent fuel c
      if c.column = indent && c.head.isSome then
        let glue :=
          if folded && lineEnd = ['\n'] && !startsBlank && !c.head.any isSpaceOrTab then
            if later.isEmpty then [' '] else []
          else lineEnd
        let (more, last, tail, c) := blockLines folded indent fuel later c
        (breaks ++ text ++ glue ++ more, last, tail, c)
      else (breaks ++ text, lineEnd, later, c)
    else ([], [], breaks, c)

/-- The text of a block scalar that starts at the cursor, inside a collection indented by
`parent` columns, -1 for none. -/
def blockScalar (folded : Bool) (parent : Int) (c : Cursor) :
    Except Fault (List Char × Cursor) := do
  let fuel := c.rest.length + 1
  let (chomping, increment, c) ← blockHeader c.next
  let least := max 1 (parent + 1).toNat
  let (indent, breaks, c) := match increment with
    | some n =>
      let indent := least + n - 1
      let (breaks, c) := blockBreaks indent fuel c
      (indent, breaks, c)
    | none =>
      let (breaks, widest, c) := leadingBreaks fuel 0 c
      (max least widest, breaks, c)
  let (text, last, tail, c) := blockLines folded indent fuel breaks c
  pure (text ++ (if chomping = .strip then [] else last) ++
    (if chomping = .keep then tail else []), c)

end TypedClient.Yaml
