/-!
# `TypedClient.Decimal.Binary64`: double precision numbers

A double is its 64 bits, so equality of doubles is decidable and tells signed zeros
apart. Numbers are rounded to doubles in exact arithmetic: `ofRatio` gives the double
nearest to a quotient, a tie going to the even significand.

* `Binary64.ofDecimal`: the double nearest to a decimal number.
* `Binary64.magnitude?`: the significand and the power of two of a finite double.
-/

set_option autoImplicit false

namespace TypedClient

/-- A double precision number, given by its bits. -/
structure Binary64 where
  bits : UInt64
deriving DecidableEq, Inhabited

namespace Binary64

/-- The double with a sign and the bits that follow the sign. -/
def ofMagnitude (negative : Bool) (magnitude : Nat) : Binary64 :=
  ⟨UInt64.ofNat (magnitude + if negative then Nat.pow 2 63 else 0)⟩

/-- The bits of the exponent with all bits set, which mark infinities and NaN. -/
def exponentMask : Nat := 0x7ff * Nat.pow 2 52

def zero : Binary64 := ⟨0⟩

def infinity (negative : Bool) : Binary64 := ofMagnitude negative exponentMask

def nan : Binary64 := ofMagnitude false (exponentMask + Nat.pow 2 51)

/-- The sign bit is set. -/
def isNegative (x : Binary64) : Bool := Nat.pow 2 63 ≤ x.bits.toNat

/-- The bits after the sign. -/
def magnitudeBits (x : Binary64) : Nat := x.bits.toNat % Nat.pow 2 63

def isNaN (x : Binary64) : Bool := exponentMask < x.magnitudeBits

def isInfinite (x : Binary64) : Bool := x.magnitudeBits = exponentMask

def isZero (x : Binary64) : Bool := x.magnitudeBits = 0

/-- The double of the other sign. -/
def neg (x : Binary64) : Binary64 := ofMagnitude (!x.isNegative) x.magnitudeBits

/-- The absolute value of a finite double as a significand and a power of two. -/
def magnitude? (x : Binary64) : Option (Nat × Int) :=
  let exponent : Nat := x.magnitudeBits / Nat.pow 2 52
  let fraction : Nat := x.magnitudeBits % Nat.pow 2 52
  if exponent = 0x7ff then none
  else if exponent = 0 then some (fraction, -1074)
  else some (fraction + Nat.pow 2 52, (exponent : Int) - 1075)

/-- `n * 2 ^ q` as a quotient. -/
def scaled (n : Nat) (q : Int) : Nat × Nat :=
  if 0 ≤ q then (n * Nat.pow 2 q.toNat, 1) else (n, Nat.pow 2 (-q).toNat)

/-- The quotient rounded to the nearest integer, a tie to the even one. -/
def roundQuotient (num den : Nat) : Nat :=
  let q := num / den
  let r := num % den
  if den < 2 * r || (2 * r = den && q % 2 = 1) then q + 1 else q

/-- The double nearest to `num / den`, for positive `den`. The significand gets 53 bits
where the exponent allows it; a significand that rounds up to 54 bits carries into the
exponent of its own accord. -/
def ofRatio (negative : Bool) (num den : Nat) : Binary64 :=
  if num = 0 then ofMagnitude negative 0
  else
    let guess : Int := (Nat.log2 num : Int) - Nat.log2 den - 52
    let scaledBy := fun (q : Int) =>
      if 0 ≤ q then (num, den * Nat.pow 2 q.toNat) else (num * Nat.pow 2 (-q).toNat, den)
    let exact := if (scaledBy guess).1 / (scaledBy guess).2 < Nat.pow 2 52 then guess - 1 else guess
    let q := max exact (-1074)
    let significand := roundQuotient (scaledBy q).1 (scaledBy q).2
    let magnitude :=
      if significand < Nat.pow 2 52 then significand
      else (q + 1075).toNat * Nat.pow 2 52 + (significand - Nat.pow 2 52)
    ofMagnitude negative (min magnitude exponentMask)

/-- The number of decimal digits of a natural number. -/
def digitCount (n : Nat) : Nat := (Nat.toDigits 10 n).length

/-- The double nearest to `digits * 10 ^ exponent`. Exponents beyond the range of
doubles are settled before any power is taken. -/
def ofDecimal (negative : Bool) (digits : Nat) (exponent : Int) : Binary64 :=
  let size := (digitCount digits : Int) + exponent
  if digits = 0 || size < -400 then ofMagnitude negative 0
  else if 400 < size then infinity negative
  else if 0 ≤ exponent then ofRatio negative (digits * Nat.pow 10 exponent.toNat) 1
  else ofRatio negative digits (Nat.pow 10 (-exponent).toNat)

/-- The double is exactly the integer. -/
def equalsInt (x : Binary64) (i : Int) : Bool :=
  match x.magnitude? with
  | none => false
  | some (m, q) =>
    let (num, den) := scaled m q
    (if x.isNegative then -(num : Int) else num) = i * den

/-- Equality as numbers: both zeros are equal, NaN equals nothing. -/
def sameNumber (x y : Binary64) : Bool :=
  !x.isNaN && !y.isNaN && (x = y || (x.isZero && y.isZero))

/-- The sum, rounded. -/
def add (x y : Binary64) : Binary64 :=
  ⟨(Float.ofBits x.bits + Float.ofBits y.bits).toBits⟩

/-- The product, rounded. -/
def mul (x y : Binary64) : Binary64 :=
  ⟨(Float.ofBits x.bits * Float.ofBits y.bits).toBits⟩

end Binary64

end TypedClient
