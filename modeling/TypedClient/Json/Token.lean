import TypedClient.Text.Digit
import TypedClient.Value.Basic

/-!
# `TypedClient.Json.Token`: the tokens of JSON text

`tokens` cuts a text into brackets, separators, texts and other scalars. Text that starts
no token ends the list with `Token.malformed`, so a reader of tokens meets the errors of
a document in their order. Besides the numbers of the standard, `NaN`, `Infinity` and
`-Infinity` are scalars; a number with a fraction or an exponent is a double, any other
an integer.
-/

set_option autoImplicit false

namespace TypedClient.Json

inductive Token where
  | beginMap
  | endMap
  | beginList
  | endList
  | colon
  | comma
  | text (s : String)
  | scalar (v : Value)
  /-- An integer with more digits than are read. -/
  | numberTooLong
  /-- Text that no token starts with. -/
  | malformed
deriving DecidableEq

/-- White space between tokens. -/
def isSpace (c : Char) : Bool := c = ' ' || c = '\t' || c = '\n' || c = '\r'

/-- A part of a text in quotes: a character, or the code unit of an escape. -/
inductive Piece where
  | char (c : Char)
  | unit (code : Nat)

/-- The value of four hexadecimal digits. -/
def hexUnit? (a b c d : Char) : Option Nat := do
  let ds ← [a, b, c, d].mapM fun x => if x.toNat < 128 then Text.digitValue? x else none
  pure (Text.ofDigits 16 ds)

/-- The character that a one-letter escape stands for. -/
def shortEscape? : Char → Option Char
  | '\"' => some '\"'
  | '\\' => some '\\'
  | '/' => some '/'
  | 'b' => some '\x08'
  | 'f' => some '\x0c'
  | 'n' => some '\n'
  | 'r' => some '\r'
  | 't' => some '\t'
  | _ => none

/-- The pieces up to the closing quote and what follows it. -/
def pieces? : List Char → Option (List Piece × List Char)
  | [] => none
  | '\"' :: rest => some ([], rest)
  | '\\' :: 'u' :: a :: b :: c :: d :: rest => do
    let code ← hexUnit? a b c d
    let (ps, rest) ← pieces? rest
    pure (.unit code :: ps, rest)
  | '\\' :: e :: rest => do
    let c ← shortEscape? e
    let (ps, rest) ← pieces? rest
    pure (.char c :: ps, rest)
  | c :: rest =>
    if c < ' ' || c = '\\' then none
    else do
      let (ps, rest) ← pieces? rest
      pure (.char c :: ps, rest)

/-- The characters of the pieces. Two units of a surrogate pair are one character; a
surrogate on its own is replaced by U+FFFD. -/
def joinPieces : List Piece → List Char
  | [] => []
  | .char c :: rest => c :: joinPieces rest
  | .unit hi :: .unit lo :: rest =>
    if 0xd800 ≤ hi && hi < 0xdc00 && 0xdc00 ≤ lo && lo < 0xe000 then
      Char.ofNat (0x10000 + (hi - 0xd800) * 0x400 + (lo - 0xdc00)) :: joinPieces rest
    else
      (if 0xd800 ≤ hi && hi < 0xe000 then '\ufffd' else Char.ofNat hi) ::
        joinPieces (.unit lo :: rest)
  | .unit code :: rest =>
    (if 0xd800 ≤ code && code < 0xe000 then '\ufffd' else Char.ofNat code) :: joinPieces rest

/-- The digits at the start of a text, and the rest. -/
def spanDigits (cs : List Char) : List Char × List Char :=
  cs.span Char.isDigit

/-- The number that ASCII digits stand for. -/
def natOf (digits : List Char) : Nat :=
  Text.ofDigits 10 (digits.filterMap Text.decimalValue?)

/-- The fraction digits at the start of a text, none if there is no fraction. -/
def fraction : List Char → List Char × List Char
  | '.' :: rest => match spanDigits rest with
    | ([], _) => ([], '.' :: rest)
    | (digits, rest) => (digits, rest)
  | cs => ([], cs)

/-- The exponent at the start of a text, if there is one. -/
def exponent (cs : List Char) : Option Int × List Char :=
  match cs with
  | e :: rest =>
    if e = 'e' || e = 'E' then
      let (negative, after) := match rest with
        | '-' :: r => (true, r)
        | '+' :: r => (false, r)
        | r => (false, r)
      match spanDigits after with
      | ([], _) => (none, cs)
      | (digits, after) => (some (if negative then -(natOf digits) else natOf digits), after)
    else (none, cs)
  | [] => (none, [])

/-- The number at the start of a text whose sign has been read. -/
def number (negative : Bool) (cs : List Char) : Token × List Char :=
  let (whole, rest) := match cs with
    | '0' :: r => (['0'], r)
    | r => spanDigits r
  if whole.isEmpty then (.malformed, cs)
  else
    let (digits, rest) := fraction rest
    let (power, rest) := exponent rest
    if digits.isEmpty && power.isNone then
      if Text.maxDecimalDigits < whole.length then (.numberTooLong, rest)
      else
        let n : Int := natOf whole
        (.scalar (.int (if negative then -n else n)), rest)
    else
      (.scalar (.float (Binary64.ofDecimal negative (natOf (whole ++ digits))
        (power.getD 0 - digits.length))), rest)

/-- The rest of a text after a word, if the text starts with it. -/
def afterWord? (word : String) (cs : List Char) : Option (List Char) :=
  if word.toList.isPrefixOf cs then some (cs.drop word.length) else none

/-- The scalars that are written as words. -/
def words : List (String × Value) :=
  [("null", .null), ("true", .bool true), ("false", .bool false), ("NaN", .float .nan),
   ("Infinity", .float (.infinity false)), ("-Infinity", .float (.infinity true))]

/-- The token at the start of a text that is not white space, and the rest. -/
def token (cs : List Char) : Token × List Char :=
  match cs with
  | '\x7b' :: rest => (.beginMap, rest)
  | '\x7d' :: rest => (.endMap, rest)
  | '[' :: rest => (.beginList, rest)
  | ']' :: rest => (.endList, rest)
  | ':' :: rest => (.colon, rest)
  | ',' :: rest => (.comma, rest)
  | '\"' :: rest => match pieces? rest with
    | some (ps, rest) => (.text (String.ofList (joinPieces ps)), rest)
    | none => (.malformed, rest)
  | cs => match words.findSome? fun w => (afterWord? w.1 cs).map fun rest => (w.2, rest) with
    | some (v, rest) => (.scalar v, rest)
    | none => match cs with
      | '-' :: rest => number true rest
      | rest => number false rest

/-- The tokens of a text of at most `fuel` characters. -/
def tokensWithin : (fuel : Nat) → List Char → List Token
  | 0, _ => []
  | fuel + 1, cs => match cs.dropWhile isSpace with
    | [] => []
    | rest => match token rest with
      | (.malformed, _) => [.malformed]
      | (t, rest) => t :: tokensWithin fuel rest

/-- The tokens of a text. Each takes up at least one character. -/
def tokens (cs : List Char) : List Token :=
  tokensWithin (cs.length + 1) cs

end TypedClient.Json
