import TypedClient.Text.CharSet
import TypedClient.Text.DigitTable

/-!
# `TypedClient.Text.Digit`: digits and their values

A digit in the wide sense may be a superscript or a circled number; only the decimal
digits, of whatever script, have a value that numbers are read with.
-/

set_option autoImplicit false

namespace TypedClient.Text

/-- A digit in the wide sense. -/
def isDigit (c : Char) : Bool :=
  c.isDigit || inRanges DigitTable.digits c.toNat

/-- The value of a decimal digit. -/
def decimalValue? (c : Char) : Option Nat :=
  if c.isDigit then some (c.toNat - '0'.toNat)
  else (DigitTable.zeros.find? fun z => z ≤ c.toNat && c.toNat < z + 10).map (c.toNat - ·)

/-- The value of an ASCII digit or letter as a digit of a base up to sixteen, or of a
decimal digit of another script. -/
def digitValue? (c : Char) : Option Nat :=
  if 'a' ≤ c && c ≤ 'f' then some (c.toNat - 'a'.toNat + 10)
  else if 'A' ≤ c && c ≤ 'F' then some (c.toNat - 'A'.toNat + 10)
  else decimalValue? c

/-- Decimal integers with more digits than this are neither read nor written. -/
def maxDecimalDigits : Nat := 4300

/-- The number that digits, all below the base, stand for. -/
def ofDigits (base : Nat) (digits : List Nat) : Nat :=
  digits.foldl (fun n d => n * base + d) 0

end TypedClient.Text
