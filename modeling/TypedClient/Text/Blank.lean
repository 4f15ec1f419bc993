/-!
# `TypedClient.Text.Blank`: white space and lines

White space is what Unicode counts as such, together with the four ASCII separators
U+001C to U+001F. Lines end at any of the line and page breaks of Unicode; a carriage
return followed by a line feed is one break, and a break at the very end of a text opens
no further line.
-/

set_option autoImplicit false

namespace TypedClient.Text

/-- White space. -/
def isBlank (c : Char) : Bool :=
  ('\t' ≤ c && c ≤ '\r') || ('\u001c' ≤ c && c ≤ ' ') || c = '\u0085' || c = '\u00a0' ||
  c = '\u1680' || ('\u2000' ≤ c && c ≤ '\u200a') || c = '\u2028' || c = '\u2029' ||
  c = '\u202f' || c = '\u205f' || c = '\u3000'

/-- The characters up to the last one that is not white space. -/
def stripEndChars (cs : List Char) : List Char :=
  (cs.reverse.dropWhile isBlank).reverse

/-- The characters between the first and the last one that is not white space. -/
def stripChars (cs : List Char) : List Char :=
  stripEndChars (cs.dropWhile isBlank)

/-- The text without the white space at its end. -/
def stripEnd (s : String) : String :=
  String.ofList (stripEndChars s.toList)

/-- The text without the white space around it. -/
def strip (s : String) : String :=
  String.ofList (stripChars s.toList)

/-- A character that ends a line. -/
def isLineBreak (c : Char) : Bool :=
  ('\n' ≤ c && c ≤ '\r') || ('\u001c' ≤ c && c ≤ '\u001e') || c = '\u0085' ||
  c = '\u2028' || c = '\u2029'

/-- The lines of a text whose current line, in reverse, is `line`. -/
def linesFrom (line : List Char) : List Char → List (List Char)
  | [] => if line.isEmpty then [] else [line.reverse]
  | '\r' :: '\n' :: rest => line.reverse :: linesFrom [] rest
  | c :: rest =>
    if isLineBreak c then line.reverse :: linesFrom [] rest
    else linesFrom (c :: line) rest

/-- The lines of a text, without their breaks. -/
def lines (s : String) : List String :=
  (linesFrom [] s.toList).map String.ofList

end TypedClient.Text
