import TypedClient.Text.Digit
import TypedClient.Yaml.TimestampForm

/-!
# `TypedClient.Yaml.Kind`: what kind of value a node denotes

A node without a tag has the kind that its text looks like: YAML 1.1 gives the forms of
truth values, numbers, null, timestamps, merge keys and default values. A text that fits
none is a text. A single line feed at the end is overlooked.
-/

set_option autoImplicit false

namespace TypedClient.Yaml

/-- The kind of value that a node denotes. -/
inductive Kind where
  | null
  | bool
  | int
  | float
  | text
  | binary
  | timestamp
  | list
  | map
  | set
  /-- A list of pairs, written as mappings of one entry. -/
  | pairs
  /-- A key whose mapping is merged into the one around it. -/
  | merge
  /-- A key whose value stands for the mapping when text is meant. -/
  | defaultValue
  /-- A kind that denotes no value here. -/
  | foreign
deriving DecidableEq, Inhabited

/-- The start of the names of the standard tags. -/
def standardLead : String := "tag:yaml.org,2002:"

/-- The kind that a tag names. -/
def Kind.ofTag (tag : String) : Kind :=
  if tag = standardLead ++ "null" then null
  else if tag = standardLead ++ "bool" then bool
  else if tag = standardLead ++ "int" then int
  else if tag = standardLead ++ "float" then float
  else if tag = standardLead ++ "str" then text
  else if tag = standardLead ++ "binary" then binary
  else if tag = standardLead ++ "timestamp" then timestamp
  else if tag = standardLead ++ "seq" then list
  else if tag = standardLead ++ "map" then map
  else if tag = standardLead ++ "set" then set
  else if tag = standardLead ++ "omap" || tag = standardLead ++ "pairs" then pairs
  else if tag = standardLead ++ "merge" then merge
  else if tag = standardLead ++ "value" then defaultValue
  else foreign

/-- The truth values, in lower case. -/
def truthValues : List (String × Bool) :=
  [("yes", true), ("no", false), ("true", true), ("false", false), ("on", true), ("off", false)]

/-- The spellings of a word that count: lower case, capitalized, and upper case. -/
def isSpelling (word : String) (cs : List Char) : Bool :=
  cs = word.toList || cs = word.toList.map Char.toUpper ||
  cs = match word.toList with
    | [] => []
    | c :: rest => c.toUpper :: rest

/-- The text without a sign in front. -/
def dropSign : List Char → List Char
  | '-' :: rest => rest
  | '+' :: rest => rest
  | cs => cs

def isDigitOrUnderscore (c : Char) : Bool := c.isDigit || c = '_'

def isBinaryDigit (c : Char) : Bool := c = '0' || c = '1' || c = '_'

def isOctalDigit (c : Char) : Bool := ('0' ≤ c && c ≤ '7') || c = '_'

def isHexDigit (c : Char) : Bool :=
  c.isDigit || ('a' ≤ c && c ≤ 'f') || ('A' ≤ c && c ≤ 'F') || c = '_'

/-- Some characters, all of which pass a test. -/
def someAll (p : Char → Bool) (cs : List Char) : Bool := !cs.isEmpty && cs.all p

/-- The rest after the sixtieths of a number: groups of a colon and one or two digits of
which the first is below six. -/
def afterSixtieths : List Char → List Char
  | ':' :: a :: b :: rest =>
    if '0' ≤ a && a ≤ '5' && b.isDigit then afterSixtieths rest
    else if a.isDigit then afterSixtieths (b :: rest)
    else ':' :: a :: b :: rest
  | [':', a] => if a.isDigit then [] else [':', a]
  | cs => cs

/-- The rest after the digits at the start and at least one group of sixtieths. -/
def afterSexagesimal? (cs : List Char) : Option (List Char) :=
  match cs.dropWhile isDigitOrUnderscore with
  | ':' :: rest =>
    let after := afterSixtieths (':' :: rest)
    if after.length < rest.length + 1 then some after else none
  | _ => none

/-- The text looks like an integer. -/
def looksLikeInt (cs : List Char) : Bool :=
  match dropSign cs with
  | ['0'] => true
  | '0' :: 'b' :: rest => someAll isBinaryDigit rest
  | '0' :: 'x' :: rest => someAll isHexDigit rest
  | '0' :: rest => rest.all isOctalDigit
  | c :: rest => c.isDigit && (rest.all isDigitOrUnderscore || afterSexagesimal? rest = some [])
  | [] => false

/-- An exponent with a sign, or nothing. -/
def isExponent : List Char → Bool
  | [] => true
  | e :: sign :: rest => (e = 'e' || e = 'E') && (sign = '-' || sign = '+') &&
    someAll Char.isDigit rest
  | _ => false

/-- The text looks like a number with a fraction. -/
def looksLikeFloat (cs : List Char) : Bool :=
  let unsigned := dropSign cs
  let special := match unsigned with
    | '.' :: rest => ["inf", "Inf", "INF"].any (·.toList = rest)
    | _ => false
  let notANumber := [".nan", ".NaN", ".NAN"].any (·.toList = cs)
  let fractionOnly := match cs with
    | '.' :: c :: rest => c.isDigit && isExponent (rest.dropWhile isDigitOrUnderscore)
    | _ => false
  let decimal := match unsigned with
    | c :: rest => c.isDigit && match rest.dropWhile isDigitOrUnderscore with
      | '.' :: rest => isExponent (rest.dropWhile isDigitOrUnderscore)
      | _ => false
    | [] => false
  let sexagesimal := match unsigned with
    | c :: rest => c.isDigit && match afterSexagesimal? rest with
      | some ('.' :: rest) => rest.all isDigitOrUnderscore
      | _ => false
    | [] => false
  special || notANumber || fractionOnly || decimal || sexagesimal

/-- The text looks like a timestamp: a date alone has two digits for month and day. -/
def looksLikeTimestamp (cs : List Char) : Bool :=
  (timestampDigits? cs).any fun t => t.clock.isSome || (t.month.length = 2 && t.day.length = 2)

/-- The text without a line feed at its end. -/
def dropFinalBreak (cs : List Char) : List Char :=
  if cs.getLast? = some '\n' then cs.dropLast else cs

/-- The kind that a text without quotes and tag looks like. -/
def Kind.ofPlain (text : String) : Kind :=
  let cs := dropFinalBreak text.toList
  if truthValues.any fun w => isSpelling w.1 cs then bool
  else if looksLikeFloat cs then float
  else if looksLikeInt cs then int
  else if cs = ['<', '<'] then merge
  else if cs.isEmpty && text.isEmpty || cs = ['~'] || isSpelling "null" cs then null
  else if looksLikeTimestamp cs then timestamp
  else if cs = ['='] then defaultValue
  -- Indicators alone are reserved.
  else if cs = ['!'] || cs = ['&'] || cs = ['*'] then foreign
  else Kind.text

end TypedClient.Yaml
