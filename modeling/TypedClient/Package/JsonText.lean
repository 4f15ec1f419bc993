import TypedClient.Text.Quoted

/-!
# `TypedClient.Package.JsonText`: text in JSON files of a package

A text in double quotes, in ASCII. Other characters are written as UTF-16 code units in
four hexadecimal digits, and so are the characters with a meaning in HTML.
-/

set_option autoImplicit false

namespace TypedClient.JsonText

/-- A code unit as an escape. -/
def unit (code : Nat) : List Char := '\\' :: 'u' :: Text.hexDigits 4 code

/-- A character as escapes, two if it lies beyond the first 65536. -/
def units (c : Char) : List Char :=
  if c.toNat < 0x10000 then unit c.toNat
  else
    let code := c.toNat - 0x10000
    unit (0xd800 + code / 0x400) ++ unit (0xdc00 + code % 0x400)

/-- One character of a text. -/
def char (c : Char) : List Char :=
  if c = '\"' || c = '\\' then ['\\', c]
  else if c = '\n' then ['\\', 'n']
  else if c = '\r' then ['\\', 'r']
  else if c = '\t' then ['\\', 't']
  else if c = '\x08' then ['\\', 'b']
  else if c = '\x0c' then ['\\', 'f']
  else if c = '<' || c = '>' || c = '&' || c = '\'' then units c
  else if ' ' ≤ c && c ≤ '~' then [c]
  else units c

/-- A text as it stands in a JSON file. -/
def encode (s : String) : String :=
  String.ofList ('\"' :: s.toList.flatMap char ++ ['\"'])

end TypedClient.JsonText
