import StackSurvey.Number.Shortest

/-! # How numbers are written

    Data uses the compact notation: positional while the point falls within sixteen digits or at
    most five places before them, scientific beyond.  Messages about settings use the plain
    notation, which is positional throughout.  Durations have a fixed number of places. -/

namespace StackSurvey.Binary64

def digitsOf (n : Nat) : List Char := Nat.toDigits 10 n

/-- Digits with the point after the first `point` of them; zeros fill what is missing. -/
def positional (digits : List Char) (point : Int) : List Char :=
  if point ≤ 0 then ['0', '.'] ++ List.replicate (-point).toNat '0' ++ digits
  else
    let n := point.toNat
    if digits.length ≤ n then
      digits ++ List.replicate (n - digits.length) '0' ++ ['.', '0']
    else digits.take n ++ ['.'] ++ digits.drop n

/-- Digits with a signed power of ten; the point stands after the first digit. -/
def scientific (digits : List Char) (point : Int) : List Char :=
  let e := point - 1
  let power := (if e < 0 then ['-'] else ['+']) ++ digitsOf e.natAbs
  match digits with
  | [] => []
  | [d] => d :: 'e' :: power
  | d :: rest => d :: '.' :: rest ++ 'e' :: power

/-- A sign before a text. -/
def signed (x : Binary64) (text : List Char) : List Char :=
  if x.negative then '-' :: text else text

/-- The notation of data, for finite numbers. -/
def compact (x : Binary64) : List Char :=
  signed x <|
    if x.isZero then ['0', '.', '0']
    else
      let d := x.shortest .toEven
      let digits := digitsOf d.digits
      let point := d.exponent + (digits.length : Int)
      if -5 < point && point ≤ 16 then positional digits point else scientific digits point

/-- The notation of messages. -/
def plain (x : Binary64) : List Char :=
  if x.isNaN then ['N', 'a', 'N']
  else signed x <|
    if x.isInfinite then ['i', 'n', 'f']
    else if x.isZero then ['0', '.', '0']
    else
      let d := x.shortest .upward
      let digits := digitsOf d.digits
      positional digits (d.exponent + (digits.length : Int))

/-- A finite number with one decimal place, a tie going to the even digit. -/
def onePlace (x : Binary64) : List Char :=
  let (num, den) := x.ratio
  let tenths := roundQuotient (10 * num) den
  signed x (digitsOf (tenths / 10) ++ '.' :: digitsOf (tenths % 10))

end StackSurvey.Binary64
