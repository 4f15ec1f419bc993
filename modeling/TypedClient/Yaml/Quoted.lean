import TypedClient.Text.Digit
import TypedClient.Yaml.Cursor

/-!
# `TypedClient.Yaml.Quoted`: scalars in quotes

Inside quotes a line break with the blanks around it is folded: a single break is a
space, further breaks stay. In single quotes a doubled quote is a quote; in double quotes
a backslash starts an escape, and a backslash at the end of a line joins it to the next.
-/

set_option autoImplicit false

namespace TypedClient.Yaml

/-- The breaks of blank lines from here on, and the start of the text after them. A
document marker may not stand inside quotes. -/
def foldedBreaks : (fuel : Nat) → Cursor → Except Fault (List Char × Cursor)
  | 0, _ => .error .malformed
  | fuel + 1, c =>
    if c.atMarker then .error .malformed
    else
      let c := c.skipWhile isSpaceOrTab
      match c.lineBreak with
      | ([], _) => .ok ([], c)
      | (b, c) => (foldedBreaks fuel c).map fun (bs, c) => (b ++ bs, c)

/-- What a line break and the breaks after it amount to in folded text. -/
def fold (first breaks : List Char) : List Char :=
  (if first ≠ ['\n'] then first else if breaks.isEmpty then [' '] else []) ++ breaks

/-- The character that a one-letter escape stands for. -/
def shortEscape? : Char → Option Char
  | '0' => some '\x00'
  | 'a' => some '\x07'
  | 'b' => some '\x08'
  | 't' => some '\t'
  | '\t' => some '\t'
  | 'n' => some '\n'
  | 'v' => some '\x0b'
  | 'f' => some '\x0c'
  | 'r' => some '\r'
  | 'e' => some '\x1b'
  | ' ' => some ' '
  | '\"' => some '\"'
  | '\\' => some '\\'
  | '/' => some '/'
  | 'N' => some '\u0085'
  | '_' => some '\u00a0'
  | 'L' => some '\u2028'
  | 'P' => some '\u2029'
  | _ => none

/-- The number of digits after an escape that gives a code. -/
def codeLength? : Char → Option Nat
  | 'x' => some 2
  | 'u' => some 4
  | 'U' => some 8
  | _ => none

/-- The digits of an ASCII hexadecimal number. -/
def hexValues? (cs : List Char) : Option (List Nat) :=
  cs.mapM fun x => if x.toNat < 128 then Text.digitValue? x else none

/-- The character with a code. A surrogate is replaced by U+FFFD. -/
def ofCode (code : Nat) : Except Fault Char :=
  if 0x80000000 ≤ code then .error (.defect .numberTooLarge)
  else if 0x110000 ≤ code then .error (.defect .noSuchCharacter)
  else if 0xd800 ≤ code && code < 0xe000 then .ok '\ufffd'
  else .ok (Char.ofNat code)

/-- The text of an escape, from the character after the backslash on. -/
def escape (fuel : Nat) (c : Cursor) : Except Fault (List Char × Cursor) :=
  match c.head with
  | none => .error .malformed
  | some e => match shortEscape? e, codeLength? e with
    | some x, _ => .ok ([x], c.next)
    | none, some n =>
      let digits := c.next.rest.take n
      match hexValues? digits with
      | some ds =>
        if ds.length = n then
          (ofCode (Text.ofDigits 16 ds)).map fun x => ([x], c.next.skip n)
        else .error .malformed
      | none => .error .malformed
    | none, none => match c.lineBreak with
      | ([], _) => .error .malformed
      | (_, c) => foldedBreaks fuel c

/-- The text up to the closing quote, which is a single or a double one, and the place
after it. -/
def quotedRest (double : Bool) : (fuel : Nat) → Cursor → Except Fault (List Char × Cursor)
  | 0, _ => .error .malformed
  | fuel + 1, c => match c.head with
    | none => .error .malformed
    | some x =>
      let go := fun (r : List Char × Cursor) =>
        (quotedRest double fuel r.2).map fun (cs, c) => (r.1 ++ cs, c)
      if x = (if double then '\"' else '\'') then
        if !double && c.peek 1 = some '\'' then go (['\''], c.skip 2) else .ok ([], c.next)
      else if double && x = '\\' then
        match escape fuel c.next with
        | .ok r => go r
        | .error f => .error f
      else if isSpaceOrTab x || isBreak x then
        let (blanks, c) := c.takeWhile isSpaceOrTab
        match c.lineBreak with
        | ([], c) => go (blanks, c)
        | (first, c) => match foldedBreaks fuel c with
          | .ok (breaks, c) => go (fold first breaks, c)
          | .error f => .error f
      else go ([x], c.next)

/-- The text of a quoted scalar that starts at the cursor. -/
def quotedScalar (double : Bool) (c : Cursor) : Except Fault (List Char × Cursor) :=
  quotedRest double (c.rest.length + 1) c.next

end TypedClient.Yaml
