import TypedClient.Yaml.Quoted

/-!
# `TypedClient.Yaml.Plain`: scalars without quotes

A plain scalar runs until a colon before a blank, a comment, or, inside brackets, a
separator; it may go on in lines that are indented more deeply than the collection around
it, and its line breaks are folded.
-/

set_option autoImplicit false

namespace TypedClient.Yaml

/-- A character that ends a plain scalar inside brackets. -/
def isFlowIndicator (c : Char) : Bool :=
  c = ',' || c = '[' || c = ']' || c = '\x7b' || c = '\x7d'

/-- The colon before these characters is an indicator. -/
def endsKey (inFlow : Bool) (c : Option Char) : Bool :=
  endsWord c || (inFlow && c.any isFlowIndicator)

/-- The characters from here on that go into a plain scalar without a blank. -/
def plainRun (inFlow : Bool) : List Char → List Char
  | [] => []
  | x :: rest =>
    if endsWord (some x) || (x = ':' && endsKey inFlow rest.head?) ||
        (inFlow && (x = '?' || isFlowIndicator x)) then []
    else x :: plainRun inFlow rest

/-- The breaks of the blank lines from here on, or nothing if a document marker stands at
the start of a line. -/
def plainBreaks : (fuel : Nat) → Cursor → Option (List Char) × Cursor
  | 0, c => (some [], c)
  | fuel + 1, c =>
    if c.head = some ' ' then plainBreaks fuel c.next
    else match c.lineBreak with
      | ([], c) => (some [], c)
      | (b, c) =>
        if c.atMarker then (none, c)
        else
          let (bs, c) := plainBreaks fuel c
          (bs.map (b ++ ·), c)

/-- The blanks between two parts of a plain scalar. -/
structure PlainGap where
  text : List Char
  /-- A line has ended. -/
  crossesLine : Bool
  after : Cursor

/-- The blanks from here on. An empty text means that the scalar ends. -/
def plainGap (c : Cursor) : PlainGap :=
  let (blanks, c) := c.takeWhile (· = ' ')
  match c.lineBreak with
  | ([], c) => ⟨blanks, false, c⟩
  | (first, c) =>
    if c.atMarker then ⟨[], true, c⟩
    else match plainBreaks (c.rest.length + 1) c with
      | (some breaks, c) => ⟨fold first breaks, true, c⟩
      | (none, c) => ⟨[], true, c⟩

/-- The text of a plain scalar from here on, whether a line has ended after it, and the
place after it. `gap` are the blanks before the cursor. -/
def plainRest (inFlow : Bool) (indent : Int) :
    (fuel : Nat) → (gap : List Char) → (crossesLine : Bool) → Cursor → List Char × Bool × Cursor
  | 0, _, crossesLine, c => ([], crossesLine, c)
  | fuel + 1, gap, crossesLine, c =>
    if c.head = some '#' then ([], crossesLine, c)
    else match plainRun inFlow c.rest with
      | [] => ([], crossesLine, c)
      | run =>
        let next := plainGap (c.skip run.length)
        if next.text.isEmpty || next.after.head = some '#' ||
            (!inFlow && (next.after.column : Int) < indent) then
          (gap ++ run, next.crossesLine, next.after)
        else
          let (more, crossesLine, c) :=
            plainRest inFlow indent fuel next.text next.crossesLine next.after
          (gap ++ run ++ more, crossesLine, c)

/-- The text of a plain scalar at the cursor, whether a line has ended after it, and the
place after it. Its further lines are indented by `indent` columns or more. -/
def plainScalar (inFlow : Bool) (indent : Int) (c : Cursor) : List Char × Bool × Cursor :=
  plainRest inFlow indent (c.rest.length + 1) [] false c

end TypedClient.Yaml
