/-!
# `TypedClient.Yaml.TimestampForm`: the form of dates and timestamps

A date is a year of four digits, a month and a day with dashes between them. A timestamp
goes on with a separator, hour, minute and second with colons between them, a fraction if
there is one, and an offset if there is one. Only the form is looked at here: the digits
need not name a day or a time that exists.

* `timestampDigits?`: the digits of a text that has the form.
-/

set_option autoImplicit false

namespace TypedClient.Yaml

/-- The digits of a time of day. -/
structure ClockDigits where
  hour : List Char
  minute : List Char
  second : List Char
  fraction : List Char

/-- The digits of an offset from universal time. -/
structure OffsetDigits where
  negative : Bool
  hours : List Char
  minutes : List Char

/-- The digits of a date or a timestamp. -/
structure TimestampDigits where
  year : List Char
  month : List Char
  day : List Char
  clock : Option ClockDigits
  offset : Option OffsetDigits

/-- A blank between the parts of a timestamp. -/
def isSeparatorBlank (c : Char) : Bool := c = ' ' || c = '\t'

/-- One or two digits at the start of a text. -/
def oneOrTwoDigits? : List Char → Option (List Char × List Char)
  | a :: b :: rest =>
    if a.isDigit then if b.isDigit then some ([a, b], rest) else some ([a], b :: rest)
    else none
  | [a] => if a.isDigit then some ([a], []) else none
  | [] => none

/-- Two digits at the start of a text. -/
def twoDigits? : List Char → Option (List Char × List Char)
  | a :: b :: rest => if a.isDigit && b.isDigit then some ([a, b], rest) else none
  | _ => none

/-- The rest of a text after a character that it starts with. -/
def after? (c : Char) : List Char → Option (List Char)
  | x :: rest => if x = c then some rest else none
  | [] => none

/-- The offset that a text consists of, blanks before it aside: `Z`, or a sign, hours and
possibly minutes. -/
def offsetDigits? (cs : List Char) : Option OffsetDigits :=
  match cs.dropWhile isSeparatorBlank with
  | ['Z'] => some ⟨false, ['0'], []⟩
  | sign :: rest =>
    if sign = '-' || sign = '+' then do
      let (hours, rest) ← oneOrTwoDigits? rest
      match rest with
      | [] => pure ⟨sign = '-', hours, []⟩
      | _ =>
        let (minutes, rest) ← twoDigits? (← after? ':' rest)
        if rest.isEmpty then pure ⟨sign = '-', hours, minutes⟩ else none
    else none
  | [] => none

/-- The rest of a text after the separator between date and time: one letter, or blanks. -/
def afterSeparator? : List Char → Option (List Char)
  | c :: rest =>
    if c = 'T' || c = 't' then some rest
    else if isSeparatorBlank c then some (rest.dropWhile isSeparatorBlank)
    else none
  | [] => none

/-- The time of day at the start of a text, and the rest. -/
def clockDigits? (cs : List Char) : Option (ClockDigits × List Char) := do
  let (hour, rest) ← oneOrTwoDigits? cs
  let (minute, rest) ← twoDigits? (← after? ':' rest)
  let (second, rest) ← twoDigits? (← after? ':' rest)
  let (fraction, rest) := match rest with
    | '.' :: rest => rest.span Char.isDigit
    | rest => ([], rest)
  pure (⟨hour, minute, second, fraction⟩, rest)

/-- The digits of a text that has the form of a date or a timestamp. -/
def timestampDigits? (cs : List Char) : Option TimestampDigits := do
  let (century, rest) ← twoDigits? cs
  let (year, rest) ← twoDigits? rest
  let (month, rest) ← oneOrTwoDigits? (← after? '-' rest)
  let (day, rest) ← oneOrTwoDigits? (← after? '-' rest)
  if rest.isEmpty then pure ⟨century ++ year, month, day, none, none⟩
  else
    let (clock, rest) ← clockDigits? (← afterSeparator? rest)
    if rest.isEmpty then pure ⟨century ++ year, month, day, some clock, none⟩
    else
      let offset ← offsetDigits? rest
      pure ⟨century ++ year, month, day, some clock, some offset⟩

end TypedClient.Yaml
