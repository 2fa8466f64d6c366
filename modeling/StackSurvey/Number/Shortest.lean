import StackSurvey.Number.Binary64

/-! # The fewest digits that read back

    The text of a double has as many significant digits as it takes to tell the number from its
    neighbours.  Digits are searched in exact arithmetic: on the grids of one, two, … seventeen
    digits the two neighbours of the value are tested, and the first grid with a hit wins. -/

namespace StackSurvey.Binary64

/-- Which way an exact tie between two candidates goes. -/
inductive Tie where
  | toEven
  | upward
deriving DecidableEq, Repr

/-- The decimal number `digits * 10 ^ exponent`. -/
structure Decimal where
  digits : Nat
  exponent : Int
deriving DecidableEq, Repr

/-- Compares `a * 10 ^ i` with `n * 2 ^ j`. -/
def compareScaled (a : Nat) (i : Int) (n : Nat) (j : Int) : Ordering :=
  compare (a * Nat.pow 10 i.toNat * Nat.pow 2 (-j).toNat)
    (n * Nat.pow 2 j.toNat * Nat.pow 10 (-i).toNat)

/-- Does `d` lie among the reals that round to the absolute value of `x`?  The interval reaches
    halfway to both neighbours, and holds its ends exactly if the significand is even. -/
def readsBack (x : Binary64) (d : Decimal) : Bool :=
  let (m, q) := x.parts
  let narrow := m = Nat.pow 2 52 && q > -1074
  let low := if narrow then 4 * m - 1 else 4 * m - 2
  let high := 4 * m + 2
  let ends := m % 2 = 0
  let fromLow := compareScaled d.digits d.exponent low (q - 2)
  let toHigh := compareScaled d.digits d.exponent high (q - 2)
  (fromLow = .gt || (ends && fromLow = .eq)) && (toHigh = .lt || (ends && toHigh = .eq))

/-- The least `k` with `m * 2 ^ q < 10 ^ k`, searched upward from `k`. -/
def scaleFrom (m : Nat) (q : Int) : (fuel : Nat) → (k : Int) → Int
  | 0, k => k
  | fuel + 1, k => if compareScaled 1 k m q = .gt then k else scaleFrom m q fuel (k + 1)

/-- The least `k` with `m * 2 ^ q < 10 ^ k`, for positive `m`. -/
def scale (m : Nat) (q : Int) : Int :=
  let bits : Int := (Nat.log2 m : Int) + q
  scaleFrom m q 8 (bits * 30103 / 100000 - 2)

/-- The neighbours of the value on the grid `10 ^ g` that read back: the nearer of two. -/
def onGrid (tie : Tie) (x : Binary64) (g : Int) : Option Decimal :=
  let (m, q) := x.parts
  let num := m * Nat.pow 2 q.toNat * Nat.pow 10 (-g).toNat
  let den := Nat.pow 2 (-q).toNat * Nat.pow 10 g.toNat
  let low := num / den
  match x.readsBack ⟨low, g⟩ && low != 0, x.readsBack ⟨low + 1, g⟩ with
  | true, false => some ⟨low, g⟩
  | false, true => some ⟨low + 1, g⟩
  | false, false => none
  | true, true =>
    -- Both neighbours read back: the nearer one is taken, and in the middle `tie` decides.
    match compare (2 * num) ((2 * low + 1) * den) with
    | .lt => some ⟨low, g⟩
    | .gt => some ⟨low + 1, g⟩
    | .eq =>
      match tie with
      | .upward => some ⟨low + 1, g⟩
      | .toEven => if low % 2 = 0 then some ⟨low, g⟩ else some ⟨low + 1, g⟩

/-- Moves trailing zeros of the digits into the exponent. -/
def Decimal.strip : (fuel : Nat) → Decimal → Decimal
  | 0, d => d
  | fuel + 1, d =>
    if d.digits % 10 = 0 then strip fuel ⟨d.digits / 10, d.exponent + 1⟩ else d

/-- The fewest digits that read back as the absolute value of a finite `x` other than zero. -/
def shortest (tie : Tie) (x : Binary64) : Decimal :=
  let (m, q) := x.parts
  let k := scale m q
  match (List.range 17).findSome? fun (n : Nat) => onGrid tie x (k - 1 - (n : Int)) with
  | some d => d.strip 20
  | none => ⟨m * Nat.pow 2 q.toNat * Nat.pow 5 (-q).toNat, min q 0⟩

end StackSurvey.Binary64
