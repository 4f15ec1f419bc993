import TypedClient.Decimal.Shortest
import TypedClient.Failure
import TypedClient.Text.Digit
import TypedClient.Text.Quoted
import TypedClient.Value.Basic

/-!
# `TypedClient.Value.Text`: values as text

A text stands for itself, other scalars and collections have a written form. Inside
collections texts are quoted and dates show their parts. A node inside itself is shown by
dots in its brackets, so what is shown of a value is finite.

An integer with too many digits has no written form, and neither has a collection that
holds one.

* `Graph.shown`: a value inside a message.
* `Graph.text`: a value where text is due.
-/

set_option autoImplicit false

namespace TypedClient

/-- How doubles without digits are named in messages. -/
def messageNames : Binary64.SpecialNames := ⟨"nan", "inf"⟩

/-- The integers from here on have too many digits to be written. -/
def integerLimit : Nat := Nat.pow 10 Text.maxDecimalDigits

namespace Value

/-- The value is not an integer that is too long to be written. -/
def fits : Value → Bool
  | int i => i.natAbs < integerLimit
  | _ => true

/-- A scalar as it is shown inside a collection. -/
def shownScalar : Value → String
  | null => "None"
  | bool b => if b then "True" else "False"
  | int i => toString i
  | float x => x.text messageNames
  | text s => Text.quoted s
  | date d => d.shown
  | timestamp t => t.shown
  | bytes bs => Text.quotedBytes bs
  | node _ => ""

end Value

namespace Graph

/-- A value as it is shown inside a collection, within the nodes `outer` that hold it. A
path through a graph meets at most `fuel` nodes before it repeats one. -/
def shownWithin (g : Graph) : (fuel : Nat) → (outer : List Nat) → Value → Except Failure String
  | 0, _, _ => .ok ""
  | fuel + 1, outer, .node id =>
    let inside := g.shownWithin fuel (id :: outer)
    match g.nodes[id]? with
    | none => .ok ""
    | some (.list items) =>
      if outer.contains id then .ok "[...]"
      else do
        let items ← items.mapM inside
        pure ("[" ++ ", ".intercalate items ++ "]")
    | some (.map entries) =>
      if outer.contains id then .ok "\x7b...\x7d"
      else do
        let entries ← entries.mapM fun e => do
          pure ((← inside e.1) ++ ": " ++ (← inside e.2))
        pure ("\x7b" ++ ", ".intercalate entries ++ "\x7d")
    | some (.set members) =>
      if outer.contains id then .ok "set(...)"
      else if members.isEmpty then .ok "set()"
      else do
        let members ← members.mapM inside
        pure ("\x7b" ++ ", ".intercalate members ++ "\x7d")
    | some (.pair a b) =>
      if outer.contains id then .ok "(...)"
      else do pure ("(" ++ (← inside a) ++ ", " ++ (← inside b) ++ ")")
  | _ + 1, _, v => if v.fits then .ok v.shownScalar else .error (.defect .integerTooLong)

/-- A value as it is shown inside messages. -/
def shown (g : Graph) (v : Value) : Except Failure String :=
  g.shownWithin (g.nodes.size + 2) [] v

/-- A value as text. -/
def text (g : Graph) : Value → Except Failure String
  | .text s => .ok s
  | .date d => .ok d.text
  | .timestamp t => .ok t.text
  | v => g.shown v

end Graph

end TypedClient
