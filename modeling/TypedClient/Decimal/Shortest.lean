import TypedClient.Decimal.Binary64

/-!
# `TypedClient.Decimal.Shortest`: the shortest decimal text of a double

The digits of a finite double are the fewest that read back as it, and of those the
nearest to it, a tie going to the even last digit. They are found by trying one digit, two
digits and so on: if a decimal number with `n` digits lies among the reals that round to
the double, then so does one of the two neighbours of the double on the grid of such
numbers.

The text puts the digits without an exponent when the first digit stands between the
fourth place after the point and the sixteenth place before it, and then always shows a
fraction; other numbers are written with one digit before the point and a signed
exponent of two digits or more.
-/

set_option autoImplicit false

namespace TypedClient.Binary64

/-- A positive double among its neighbours, all over one denominator. -/
structure Interval where
  /-- The numerator of the value. -/
  value : Nat
  /-- The numerators of the ends of the reals that round to the value. -/
  low : Nat
  high : Nat
  denominator : Nat
  /-- The ends themselves round to the value. -/
  closed : Bool

/-- The reals that round to `m * 2 ^ q`. Below a power of two the neighbour is only half
as far away. -/
def Interval.of (m : Nat) (q : Int) : Interval :=
  let below := if m = Nat.pow 2 52 && -1074 < q then 1 else 2
  let (unit, den) := scaled 1 (q - 2)
  ⟨4 * m * unit, (4 * m - below) * unit, (4 * m + 2) * unit, den, m % 2 = 0⟩

/-- The place of the first digit: the least `p` with the value below `10 ^ p`. -/
def Interval.place (i : Interval) : Int :=
  if i.denominator ≤ i.value then digitCount (i.value / i.denominator)
  else -(((List.range 400).find? fun t =>
    i.denominator ≤ i.value * Nat.pow 10 (t + 1)).getD 0 : Nat)

/-- The number with `n` digits nearest to the value among those that round to it, the even
one of two that are equally near. -/
def Interval.withDigits? (i : Interval) (n : Nat) : Option Nat :=
  let exponent := i.place - n
  let up := Nat.pow 10 (-exponent).toNat
  let unit := i.denominator * Nat.pow 10 exponent.toNat
  let value := i.value * up
  let inside := fun (c : Nat) =>
    if i.closed then i.low * up ≤ c * unit && c * unit ≤ i.high * up
    else i.low * up < c * unit && c * unit < i.high * up
  let floor := value / unit
  match inside floor, inside (floor + 1) with
  | true, true => some (roundQuotient value unit)
  | true, false => some floor
  | false, true => some (floor + 1)
  | false, false => none

/-- The shortest digits of a positive double and the place of the first of them. -/
def Interval.shortest (i : Interval) : List Char × Int :=
  let found := (List.range 17).findSome? fun k =>
    (i.withDigits? (k + 1)).map fun c => (c, k + 1)
  let (c, n) := found.getD (0, 1)
  let digits := Nat.toDigits 10 c
  -- A neighbour that is a power of ten has one digit more than its grid.
  let place := i.place + (digits.length - n : Int)
  ((digits.reverse.dropWhile (· = '0')).reverse, place)

/-- Zeros in front of the digits up to a width. -/
def padded (width : Nat) (digits : List Char) : List Char :=
  List.replicate (width - digits.length) '0' ++ digits

/-- The text of digits whose first one stands at a place. -/
def placeDigits (digits : List Char) (place : Int) : List Char :=
  if -4 < place && place ≤ 16 then
    if place ≤ 0 then
      '0' :: '.' :: (List.replicate (-place).toNat '0' ++ digits)
    else
      let whole := digits.take place.toNat
      let fraction := digits.drop place.toNat
      whole ++ List.replicate (place.toNat - whole.length) '0' ++ '.' ::
        (if fraction.isEmpty then ['0'] else fraction)
  else
    let exponent := place - 1
    let sign := if exponent < 0 then '-' else '+'
    let mantissa := match digits with
      | [] => ['0']
      | [d] => [d]
      | d :: rest => d :: '.' :: rest
    mantissa ++ 'e' :: sign :: padded 2 (Nat.toDigits 10 exponent.natAbs)

/-- How the numbers that have no digits are written. -/
structure SpecialNames where
  nan : String
  infinity : String

/-- The shortest text that reads back as the double. -/
def text (names : SpecialNames) (x : Binary64) : String :=
  let sign := if x.isNegative then "-" else ""
  match x.magnitude? with
  | none => if x.isNaN then names.nan else sign ++ names.infinity
  | some (0, _) => sign ++ "0.0"
  | some (m, q) =>
    let (digits, place) := (Interval.of m q).shortest
    sign ++ String.ofList (placeDigits digits place)

end TypedClient.Binary64
