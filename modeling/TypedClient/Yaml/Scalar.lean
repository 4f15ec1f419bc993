import TypedClient.Text.Blank
import TypedClient.Text.Case
import TypedClient.Value.Basic
import TypedClient.Yaml.Kind
import TypedClient.Yaml.Cursor

/-!
# `TypedClient.Yaml.Scalar`: the values of scalars

A scalar of a kind is read by wider rules than those by which text without a tag is given
the kind, so a tag can ask for a value that the text does not have. What cannot be read
at all is a defect, not an error of the document.
-/

set_option autoImplicit false

namespace TypedClient.Yaml

/-- A character other than the underscores that may stand in numbers. -/
def withoutUnderscores (cs : List Char) : List Char := cs.filter (· ≠ '_')

/-- White space that may stand around a number: of ASCII only the tab, the line breaks and
the space. -/
def isNumberBlank (c : Char) : Bool :=
  c = ' ' || ('\t' ≤ c && c ≤ '\r') || (128 ≤ c.toNat && Text.isBlank c)

/-- The text without white space around it. -/
def stripNumber (cs : List Char) : List Char :=
  ((cs.dropWhile isNumberBlank).reverse.dropWhile isNumberBlank).reverse

/-- A sign at the start of a text and the rest. -/
def splitSign : List Char → Bool × List Char
  | '-' :: rest => (true, rest)
  | '+' :: rest => (false, rest)
  | cs => (false, cs)

/-- The letter that may stand after a zero in front of the digits of a base. -/
def baseLetter (base : Nat) (c : Char) : Bool :=
  match base with
  | 2 => c = 'b' || c = 'B'
  | 8 => c = 'o' || c = 'O'
  | 16 => c = 'x' || c = 'X'
  | _ => false

/-- The integer that a text stands for in a base. White space around it, a sign and the
letter of the base are allowed, and decimal digits of every script count. -/
def integer (base : Nat) (cs : List Char) : Except Fault Int :=
  let (negative, digits) := splitSign (stripNumber cs)
  let digits := match digits with
    | '0' :: c :: rest => if baseLetter base c then rest else digits
    | _ => digits
  match digits.mapM Text.digitValue? with
  | some ds =>
    if ds.isEmpty || !ds.all (· < base) then .error (.defect .malformedNumber)
    else if base = 10 && Text.maxDecimalDigits < ds.length then .error (.defect .integerTooLong)
    else
      let n : Int := Text.ofDigits base ds
      .ok (if negative then -n else n)
  | none => .error (.defect .malformedNumber)

/-- The parts of a text between colons. -/
def splitColons (cs : List Char) : List (List Char) :=
  match cs with
  | [] => [[]]
  | ':' :: rest => [] :: splitColons rest
  | c :: rest => match splitColons rest with
    | [] => [[c]]
    | part :: parts => (c :: part) :: parts

/-- The value of an integer: binary, octal, hexadecimal, in sixtieths, or decimal. -/
def intValue (text : String) : Except Fault Value := do
  let cs := withoutUnderscores text.toList
  if cs.isEmpty then throw (.defect .emptyNumber)
  let (negative, cs) := splitSign cs
  let n ← match cs with
    | [] => throw (.defect .emptyNumber)
    | ['0'] => pure 0
    | '0' :: 'b' :: rest => integer 2 rest
    | '0' :: 'x' :: rest => integer 16 rest
    -- Digits after a zero are octal, even where the text has colons.
    | '0' :: _ => integer 8 cs
    | _ =>
      if cs.contains ':' then
        pure (((← (splitColons cs).mapM (integer 10))).foldl (fun n d => n * 60 + d) 0)
      else integer 10 cs
  pure (.int (if negative then -n else n))

/-- The digits at the start of a text, of any script, and the rest. -/
def spanDecimals (cs : List Char) : List Nat × List Char :=
  let ds := cs.takeWhile fun c => (Text.decimalValue? c).isSome
  (ds.filterMap Text.decimalValue?, cs.drop ds.length)

/-- The double that a text stands for. White space around it is allowed, and so are the
names of infinity and NaN. -/
def double (cs : List Char) : Except Fault Binary64 :=
  let (negative, cs) := splitSign (stripNumber cs)
  let name := Text.lower (String.ofList cs)
  if name = "inf" || name = "infinity" then .ok (.infinity negative)
  else if name = "nan" then .ok .nan
  else
    let (whole, rest) := spanDecimals cs
    let (fraction, rest) := match rest with
      | '.' :: rest => spanDecimals rest
      | rest => ([], rest)
    let digits := whole ++ fraction
    let finish := fun (exponent : Int) =>
      if digits.isEmpty then .error (.defect .malformedNumber)
      else .ok (Binary64.ofDecimal negative (Text.ofDigits 10 digits) (exponent - fraction.length))
    match rest with
    | [] => finish 0
    | e :: rest =>
      let (below, rest) := splitSign rest
      let (ds, rest) := spanDecimals rest
      if (e = 'e' || e = 'E') && !ds.isEmpty && rest.isEmpty then
        let exponent : Int := Text.ofDigits 10 ds
        finish (if below then -exponent else exponent)
      else .error (.defect .malformedNumber)

/-- The sum of sixtieths, the last part weighing one, each step rounded. -/
def sumSixtieths (parts : List Binary64) : Binary64 :=
  (parts.reverse.foldl (fun (sum, base) x =>
    (sum.add (x.mul (Binary64.ofDecimal false base 0)), base * 60)) (Binary64.zero, 1)).1

/-- The characters of a number with a fraction, underscores left out, in lower case. -/
def floatChars (text : String) : List Char :=
  (Text.lower (String.ofList (withoutUnderscores text.toList))).toList

/-- The text is the word for NaN, with a sign or without one. -/
def isNaNWord (text : String) : Bool := (splitSign (floatChars text)).2 = ".nan".toList

/-- The value of a number with a fraction, in sixtieths or decimal. -/
def floatValue (text : String) : Except Fault Value := do
  let cs := floatChars text
  if cs.isEmpty then throw (.defect .emptyNumber)
  let (negative, cs) := splitSign cs
  let x ←
    if cs = ".inf".toList then pure (Binary64.infinity false)
    else if cs = ".nan".toList then pure Binary64.nan
    else if cs.contains ':' then
      let parts ← (splitColons cs).mapM double
      -- The weight of the first part has to be a double itself.
      if 174 < parts.length then throw (.defect .numberTooLarge)
      pure (sumSixtieths parts)
    else double cs
  pure (.float (if negative then x.neg else x))

/-- The value of a truth value. -/
def boolValue (text : String) : Except Fault Value :=
  match truthValues.lookup (Text.lower text) with
  | some b => .ok (.bool b)
  | none => .error (.defect .unknownTruthValue)

/-- The six bits that a character of base 64 stands for. -/
def base64Value? (c : Char) : Option Nat :=
  if 'A' ≤ c && c ≤ 'Z' then some (c.toNat - 'A'.toNat)
  else if 'a' ≤ c && c ≤ 'z' then some (c.toNat - 'a'.toNat + 26)
  else if c.isDigit then some (c.toNat - '0'.toNat + 52)
  else if c = '+' then some 62
  else if c = '/' then some 63
  else none

/-- The bytes of base 64 text. `filled` counts the characters of the current group of
four, `left` holds the bits that are not yet part of a byte, and `pads` counts the
padding since the last character. Padding that completes a group ends the text; all other
characters are skipped. -/
def base64Bytes? : (filled left pads : Nat) → List Char → Option (List UInt8)
  | filled, _, _, [] => if filled = 0 then some [] else none
  | filled, left, pads, c :: rest =>
    if c = '=' then
      if 2 ≤ filled then
        if 4 ≤ filled + (pads + 1) then some []
        else base64Bytes? filled left (pads + 1) rest
      else base64Bytes? filled left pads rest
    else match base64Value? c with
      | none => base64Bytes? filled left pads rest
      | some v => match filled with
        | 0 => base64Bytes? 1 v 0 rest
        | 1 => (base64Bytes? 2 (v % 16) 0 rest).map (UInt8.ofNat (left * 4 + v / 16) :: ·)
        | 2 => (base64Bytes? 3 (v % 4) 0 rest).map (UInt8.ofNat (left * 16 + v / 4) :: ·)
        | _ => (base64Bytes? 0 0 0 rest).map (UInt8.ofNat (left * 64 + v) :: ·)

/-- The value of bytes in base 64. -/
def binaryValue (text : String) : Except Fault Value :=
  if text.toList.all (·.toNat < 128) then
    match base64Bytes? 0 0 0 text.toList with
    | some bs => .ok (.bytes bs)
    | none => .error .malformed
  else .error .malformed

/-- The number that ASCII digits stand for. -/
def natOf (digits : List Char) : Nat :=
  Text.ofDigits 10 (digits.filterMap Text.decimalValue?)

/-- The microseconds of the digits of a fraction; further digits are dropped. -/
def microseconds (fraction : List Char) : Nat :=
  let six := fraction.take 6
  natOf (six ++ List.replicate (6 - six.length) '0')

/-- The minutes of an offset. -/
def OffsetDigits.totalMinutes (d : OffsetDigits) : Int :=
  let m : Int := natOf d.hours * 60 + natOf d.minutes
  if d.negative then -m else m

/-- The date or the timestamp of digits, if the calendar has it. -/
def TimestampDigits.value? (d : TimestampDigits) : Option Value := do
  let date ← Date.of? (natOf d.year) (natOf d.month) (natOf d.day)
  match d.clock with
  | none => pure (.date date)
  | some clock =>
    let t ← Timestamp.of? date (natOf clock.hour) (natOf clock.minute) (natOf clock.second)
      (microseconds clock.fraction) (d.offset.map OffsetDigits.totalMinutes)
    pure (.timestamp t)

/-- The value of a date or timestamp. -/
def timestampValue (text : String) : Except Fault Value :=
  match timestampDigits? (dropFinalBreak text.toList) with
  | none => .error (.defect .malformedTimestamp)
  | some d => match d.value? with
    | some v => .ok v
    | none => .error (.defect .impossibleDate)

end TypedClient.Yaml
