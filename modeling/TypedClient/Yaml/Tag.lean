import TypedClient.Text.Digit
import TypedClient.Yaml.Token

/-!
# `TypedClient.Yaml.Tag`: directives, anchors and tags in text

A tag is written with a handle that stands for the start of its name, or in angle
brackets as a whole. In the name a percent sign and two digits stand for a byte.
-/

set_option autoImplicit false

namespace TypedClient.Yaml

/-- The name of an anchor or alias, after its indicator. -/
def anchorName (c : Cursor) : Except Fault (String × Cursor) :=
  let (name, after) := c.next.takeWhile isWordChar
  if name.isEmpty then .error .malformed
  else if endsWord after.head || after.head.any ['?', ':', ',', ']', '\x7d', '%', '@', '`'].contains
  then .ok (String.ofList name, after)
  else .error .malformed

/-- A character of the name of a tag, the percent sign apart. -/
def isUriChar (c : Char) : Bool :=
  c.isAlphanum || "-;/?:@&=+$,_.!~*'()[]".toList.contains c

/-- The bytes that percent escapes from here on stand for. -/
def uriBytes : (fuel : Nat) → Cursor → Except Fault (List Nat × Cursor)
  | 0, c => .ok ([], c)
  | fuel + 1, c =>
    if c.head = some '%' then
      match (c.next.rest.take 2).mapM fun x =>
          if x.toNat < 128 then Text.digitValue? x else none with
      | some [a, b] =>
        (uriBytes fuel (c.skip 3)).map fun (bs, c) => ((a * 16 + b) :: bs, c)
      | _ => .error .malformed
    else .ok ([], c)

/-- The name of a tag, or a part of it, from here on. -/
def uriRest : (fuel : Nat) → Cursor → Except Fault (List Char × Cursor)
  | 0, c => .ok ([], c)
  | fuel + 1, c =>
    if c.head = some '%' then do
      let (bytes, c) ← uriBytes fuel c
      match String.fromUTF8? ⟨(bytes.map UInt8.ofNat).toArray⟩ with
      | some text =>
        let (more, c) ← uriRest fuel c
        pure (text.toList ++ more, c)
      | none => throw .malformed
    else if c.head.any isUriChar then do
      let (run, c) := c.takeWhile isUriChar
      let (more, c) ← uriRest fuel c
      pure (run ++ more, c)
    else pure ([], c)

/-- The name of a tag at the cursor, which has at least one character or escape. -/
def uri (c : Cursor) : Except Fault (String × Cursor) := do
  if c.head.any fun x => x = '%' || isUriChar x then
    let (cs, c) ← uriRest (c.rest.length + 1) c
    pure (String.ofList cs, c)
  else throw .malformed

/-- A handle at the cursor: an exclamation mark, or a word between two of them. -/
def handle (c : Cursor) : Except Fault (String × Cursor) :=
  if c.head ≠ some '!' then .error .malformed
  else if c.peek 1 = some ' ' then .ok ("!", c.next)
  else
    let (word, after) := c.next.takeWhile isWordChar
    if after.head = some '!' then .ok ("!" ++ String.ofList word ++ "!", after.next)
    else .error .malformed

/-- A tag at the cursor. -/
def tag (c : Cursor) : Except Fault (Token × Cursor) := do
  let (token, c) ←
    if c.peek 1 = some '<' then do
      let (name, c) ← uri (c.skip 2)
      if c.head = some '>' then pure (Token.tag none name, c.next) else throw .malformed
    else if endsWord (c.peek 1) then pure (Token.tag none "!", c.next)
    else do
      let word := c.next.rest.takeWhile fun x => !endsLineOrSpace (some x)
      let (h, c) ← if word.contains '!' then handle c else pure ("!", c.next)
      let (name, c) ← uri c
      pure (Token.tag (some h) name, c)
  if endsLineOrSpace c.head then pure (token, c) else throw .malformed

/-- A number of a version directive. -/
def versionNumber (c : Cursor) : Except Fault (Nat × Cursor) :=
  let (digits, c) := c.takeWhile Char.isDigit
  if digits.isEmpty then .error .malformed
  else if Text.maxDecimalDigits < digits.length then .error (.defect .integerTooLong)
  else .ok (Text.ofDigits 10 (digits.filterMap Text.decimalValue?), c)

/-- The directive at the cursor, with the rest of its line. -/
def directive (c : Cursor) : Except Fault (Token × Cursor) := do
  let (name, c) := c.next.takeWhile isWordChar
  if name.isEmpty || !endsLineOrSpace c.head then throw .malformed
  let c' := c.skipWhile (· = ' ')
  let (d, c) ←
    if name = "YAML".toList then do
      let (major, c) ← versionNumber c'
      if c.head ≠ some '.' then throw .malformed
      let (_, c) ← versionNumber c.next
      if !endsLineOrSpace c.head then throw .malformed
      pure (Directive.version major, c)
    else if name = "TAG".toList then do
      let (h, c) ← handle c'
      if c.head ≠ some ' ' then throw .malformed
      let (lead, c) ← uri (c.skipWhile (· = ' '))
      if !endsLineOrSpace c.head then throw .malformed
      pure (Directive.tagLead h lead, c)
    else pure (Directive.other, c.skipWhile (!isBreak ·))
  pure (.directive d, ← c.finishLine)

end TypedClient.Yaml
