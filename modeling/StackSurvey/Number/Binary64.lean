/-! # Double-precision numbers

    A number of the binary64 format is its bit pattern, so equality of patterns is decidable and
    every operation below is exact integer arithmetic.  The one rounding function is
    `ofRatio`: the double nearest to a fraction, a tie going to the even pattern. -/

namespace StackSurvey

/-- A number in the binary64 format. -/
structure Binary64 where
  bits : UInt64
deriving DecidableEq, Repr

namespace Binary64

/-! ## Section 1: Taking apart -/

/-- The pattern of infinity, without the sign. -/
def infinityMagnitude : Nat := 0x7FF * Nat.pow 2 52

/-- Is the sign bit set? -/
def negative (x : Binary64) : Bool := Nat.pow 2 63 ≤ x.bits.toNat

/-- The pattern without the sign.  It grows with the absolute value. -/
def magnitude (x : Binary64) : Nat := x.bits.toNat % Nat.pow 2 63

def isInfinite (x : Binary64) : Bool := x.magnitude = infinityMagnitude

def isNaN (x : Binary64) : Bool := infinityMagnitude < x.magnitude

/-- Is it a zero of either sign? -/
def isZero (x : Binary64) : Bool := x.magnitude = 0

/-- The absolute value of a finite number as `m * 2 ^ q`. -/
def parts (x : Binary64) : Nat × Int :=
  let e : Nat := x.magnitude / Nat.pow 2 52
  let f : Nat := x.magnitude % Nat.pow 2 52
  if e = 0 then (f, -1074) else (Nat.pow 2 52 + f, (e : Int) - 1075)

/-- The absolute value of a finite number as a fraction. -/
def ratio (x : Binary64) : Nat × Nat :=
  let (m, q) := x.parts
  (m * Nat.pow 2 q.toNat, Nat.pow 2 (-q).toNat)

/-! ## Section 2: Rounding -/

/-- Puts a sign before a pattern without one. -/
def ofMagnitude (negative : Bool) (magnitude : Nat) : Binary64 :=
  ⟨UInt64.ofNat (if negative then Nat.pow 2 63 + magnitude else magnitude)⟩

/-- A quotient rounded to the nearest whole number, a tie going to the even one. -/
def roundQuotient (num den : Nat) : Nat :=
  let q := num / den
  let r := num % den
  if 2 * r < den then q
  else if den < 2 * r then q + 1
  else if q % 2 = 0 then q else q + 1

/-- The pattern of the double nearest to `num / den`. -/
def magnitudeOfRatio (num den : Nat) : Nat :=
  if num = 0 then 0
  else
    let guess : Int := (Nat.log2 num : Int) - (Nat.log2 den : Int) - 53
    let quotient (e : Int) : Nat := (num * Nat.pow 2 (-e).toNat) / (den * Nat.pow 2 e.toNat)
    let e := if quotient guess < Nat.pow 2 53 then guess else guess + 1
    let e := max e (-1074)
    let m := roundQuotient (num * Nat.pow 2 (-e).toNat) (den * Nat.pow 2 e.toNat)
    min ((e + 1074).toNat * Nat.pow 2 52 + m) infinityMagnitude

/-- The double nearest to `num / den`, infinity if that is too large. -/
def ofRatio (negative : Bool) (num den : Nat) : Binary64 :=
  ofMagnitude negative (magnitudeOfRatio num den)

/-- The double nearest to `digits * 10 ^ exponent`.  Exponents that are out of reach for the
    number of digits are settled without computing the power. -/
def ofDecimal (negative : Bool) (digits : Nat) (exponent : Int) : Binary64 :=
  if digits = 0 then ofMagnitude negative 0
  else if exponent > 400 then ofMagnitude negative infinityMagnitude
  else if exponent < -(400 + (Nat.log2 digits : Int)) then ofMagnitude negative 0
  else ofRatio negative (digits * Nat.pow 10 exponent.toNat) (Nat.pow 10 (-exponent).toNat)

/-! ## Section 3: Arithmetic on finite numbers -/

/-- The double nearest to a natural number. -/
def ofNat (n : Nat) : Binary64 := ofRatio false n 1

/-- The rounded product. -/
def mul (x y : Binary64) : Binary64 :=
  let (a, b) := x.ratio
  let (c, d) := y.ratio
  ofRatio (x.negative != y.negative) (a * c) (b * d)

/-- The rounded quotient; the divisor is not zero. -/
def div (x y : Binary64) : Binary64 :=
  let (a, b) := x.ratio
  let (c, d) := y.ratio
  ofRatio (x.negative != y.negative) (a * d) (b * c)

def neg (x : Binary64) : Binary64 := ofMagnitude (!x.negative) x.magnitude

/-- Equality of values: the two zeros are equal, and what is no number equals nothing. -/
def sameValue (x y : Binary64) : Bool :=
  !x.isNaN && !y.isNaN && (x = y || (x.isZero && y.isZero))

def nan (negative : Bool) : Binary64 := ofMagnitude negative (0x7FF8 * Nat.pow 2 48)

def infinity (negative : Bool) : Binary64 := ofMagnitude negative infinityMagnitude

end Binary64
end StackSurvey
