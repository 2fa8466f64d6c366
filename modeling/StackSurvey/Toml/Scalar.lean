import StackSurvey.Toml.Cursor

/-! # Numbers, dates and words

    A value that is no string and has no brackets is one run of letters, digits and signs.  What
    the run is follows from its shape alone. -/

namespace StackSurvey.Toml

/-- A scalar without quotes. -/
inductive Scalar where
  | whole (n : Int)
  | double (x : Binary64)
  | flag (b : Bool)
  | moment (s : String)

namespace Scalar

/-! ## Section 1: Digits -/

/-- The value of a digit in a base of at most sixteen. -/
def digitValue? (base : Nat) (c : Char) : Option Nat :=
  let v :=
    if c.isDigit then c.toNat - 48
    else if 'a' ≤ c && c ≤ 'f' then c.toNat - 87
    else if 'A' ≤ c && c ≤ 'F' then c.toNat - 55
    else 16
  if v < base then some v else none

/-- Digits with single underscores between them, as their values. -/
def grouped? (base : Nat) : List Char → Option (List Nat)
  | [] => none
  | [c] => (digitValue? base c).map ([·])
  | c :: '_' :: rest => do return (← digitValue? base c) :: (← grouped? base rest)
  | c :: rest => do return (← digitValue? base c) :: (← grouped? base rest)

def ofDigits (base : Nat) (ds : List Nat) : Nat := ds.foldl (fun n d => n * base + d) 0

/-- A sign and what follows it. -/
def splitSign : List Char → Option Char × List Char
  | '+' :: rest => (some '+', rest)
  | '-' :: rest => (some '-', rest)
  | cs => (none, cs)

/-- Digits without a leading zero. -/
def decimal? (cs : List Char) : Option (List Nat) :=
  match cs with
  | '0' :: _ :: _ => none
  | _ => grouped? 10 cs

/-- A whole number: decimal with or without a sign, or in base sixteen, eight or two. -/
def whole? (cs : List Char) : Option Int :=
  match cs with
  | '0' :: 'x' :: rest => (grouped? 16 rest).map fun ds => (ofDigits 16 ds : Int)
  | '0' :: 'o' :: rest => (grouped? 8 rest).map fun ds => (ofDigits 8 ds : Int)
  | '0' :: 'b' :: rest => (grouped? 2 rest).map fun ds => (ofDigits 2 ds : Int)
  | _ =>
    let (sign, digits) := splitSign cs
    (decimal? digits).map fun ds =>
      if sign = some '-' then -(ofDigits 10 ds : Int) else ofDigits 10 ds

/-! ## Section 2: Numbers with a point or an exponent -/

/-- The first part up to a character on which `p` holds, and what follows that character. -/
def splitOn (p : Char → Bool) (cs : List Char) : List Char × Option (List Char) :=
  match cs.dropWhile (fun c => !p c) with
  | [] => (cs, none)
  | _ :: rest => (cs.takeWhile (fun c => !p c), some rest)

/-- An exponent, which may have leading zeros. -/
def exponent? (cs : List Char) : Option Int := do
  let (sign, digits) := splitSign cs
  let ds ← grouped? 10 digits
  return if sign = some '-' then -(ofDigits 10 ds : Int) else ofDigits 10 ds

/-- A number with a point or an exponent, or one of the two words; infinity only by its name. -/
def double? (cs : List Char) : Option Binary64 := do
  let (sign, body) := splitSign cs
  let negative := sign = some '-'
  if body = ['i', 'n', 'f'] then return Binary64.infinity negative
  if body = ['n', 'a', 'n'] then return Binary64.nan negative
  let (mantissa, power) := splitOn (fun c => c = 'e' || c = 'E') body
  let (left, right) := splitOn (· = '.') mantissa
  -- Without a point and an exponent it is a whole number.
  if power.isNone && right.isNone then failure
  let ls ← decimal? left
  let rs ← match right with
    | none => pure []
    | some cs => grouped? 10 cs
  let e ← match power with
    | none => pure 0
    | some cs => exponent? cs
  let x := Binary64.ofDecimal negative (ofDigits 10 (ls ++ rs)) (e - (rs.length : Int))
  if x.isInfinite then failure else return x

/-! ## Section 3: Dates and times -/

/-- Exactly `count` digits at the front. -/
def fixed? (count : Nat) (cs : List Char) : Option (Nat × List Char) :=
  let ds := cs.take count
  if ds.length = count && ds.all Char.isDigit then
    some (ofDigits 10 (ds.map fun c => c.toNat - 48), cs.drop count)
  else none

/-- The character `c` at the front. -/
def mark? (c : Char) : List Char → Option (List Char)
  | d :: rest => if d = c then some rest else none
  | [] => none

def daysIn (year month : Nat) : Nat :=
  if month = 2 then
    if year % 4 = 0 && (year % 100 ≠ 0 || year % 400 = 0) then 29 else 28
  else if month = 4 || month = 6 || month = 9 || month = 11 then 30
  else 31

/-- A number with at least `width` digits. -/
def padded (width n : Nat) : List Char :=
  let ds := Binary64.digitsOf n
  List.replicate (width - ds.length) '0' ++ ds

/-- A date at the front. -/
def date? (cs : List Char) : Option (List Char × List Char) := do
  let (year, cs) ← fixed? 4 cs
  let cs ← mark? '-' cs
  let (month, cs) ← fixed? 2 cs
  let cs ← mark? '-' cs
  let (day, cs) ← fixed? 2 cs
  if 1 ≤ month && month ≤ 12 && 1 ≤ day && day ≤ daysIn year month then
    return (padded 4 year ++ '-' :: padded 2 month ++ '-' :: padded 2 day, cs)
  else failure

/-- Digits without trailing zeros, but at least one. -/
def trimZeros (ds : List Char) : List Char :=
  match (ds.reverse.dropWhile (· = '0')).reverse with
  | [] => ['0']
  | ds => ds

/-- A time at the front.  Seconds may be left out, and a fraction counts to nine places. -/
def time? (cs : List Char) : Option (List Char × List Char) := do
  let (hour, cs) ← fixed? 2 cs
  let cs ← mark? ':' cs
  let (minute, cs) ← fixed? 2 cs
  if 23 < hour || 59 < minute then failure
  let text := padded 2 hour ++ ':' :: padded 2 minute
  match cs with
  | ':' :: cs =>
    let (second, cs) ← fixed? 2 cs
    if 60 < second then failure
    let text := text ++ ':' :: padded 2 second
    match cs with
    | '.' :: cs =>
      let ds := cs.takeWhile Char.isDigit
      if ds.isEmpty then failure
      -- Digits beyond nanoseconds are dropped.
      let nine := ds.take 9 ++ List.replicate (9 - ds.length) '0'
      return (text ++ '.' :: trimZeros nine, cs.drop ds.length)
    | _ => return (text, cs)
  | _ => return (text, cs)

/-- A distance from universal time, which ends the value. -/
def zone? (cs : List Char) : Option (List Char) := do
  match cs with
  | [] => return []
  | ['Z'] | ['z'] => return ['Z']
  | sign :: cs =>
    if sign ≠ '+' && sign ≠ '-' then failure
    let (hour, cs) ← fixed? 2 cs
    let cs ← mark? ':' cs
    let (minute, cs) ← fixed? 2 cs
    if !cs.isEmpty || 59 < minute || 24 * 60 < hour * 60 + minute then failure
    let sign := if hour = 0 && minute = 0 then '+' else sign
    return sign :: padded 2 hour ++ ':' :: padded 2 minute

/-- A date, a time or both, in normal form. -/
def moment? (cs : List Char) : Option String := do
  match date? cs with
  | some (date, []) => return String.ofList date
  | some (date, sep :: cs) =>
    if sep ≠ 'T' && sep ≠ 't' && sep ≠ ' ' then failure
    let (time, cs) ← time? cs
    let zone ← zone? cs
    return String.ofList (date ++ 'T' :: time ++ zone)
  | none =>
    let (time, cs) ← time? cs
    if cs.isEmpty then return String.ofList time else failure

/-! ## Section 4: Any scalar -/

/-- What a run of characters stands for. -/
def ofChars? (cs : List Char) : Option Scalar :=
  if cs = ['t', 'r', 'u', 'e'] then some (.flag true)
  else if cs = ['f', 'a', 'l', 's', 'e'] then some (.flag false)
  else
    match whole? cs with
    | some n => some (.whole n)
    | none =>
      match double? cs with
      | some x => some (.double x)
      | none => (moment? cs).map .moment

end Scalar

namespace Reader

/-- May `c` stand in a scalar without quotes? -/
def isScalarChar (c : Char) : Bool :=
  c.isAlphanum || c = '_' || c = '+' || c = '-' || c = '.' || c = ':'

/-- A scalar without quotes.  A date is joined with the time that follows one space after it. -/
def scalar : Reader Scalar := do
  let word ← run isScalarChar
  let followed := (← peek) == some ' ' && ((← peekSecond).map Char.isDigit).getD false
  let word ←
    match Scalar.date? word, followed with
    | some (_, []), true => do
      advance
      pure (word ++ ' ' :: (← run isScalarChar))
    | _, _ => pure word
  match Scalar.ofChars? word with
  | some s => return s
  | none => fail

end Reader
end StackSurvey.Toml
