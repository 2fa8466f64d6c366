import StackSurvey.Json.Cursor
import StackSurvey.Json.Value

/-! # Reading scalars

    Strings, numbers and the three words.  A number with a fraction, an exponent or too many
    digits is a double: its leading digits, as many as fit a word, are scaled by one rounded
    power of ten, which is quicker than exact and off by a last place now and then. -/

namespace StackSurvey.Json.Reader

/-! ## Section 1: Strings -/

def hexValue? (c : Char) : Option Nat :=
  if '0' ≤ c && c ≤ '9' then some (c.toNat - 48)
  else if 'a' ≤ c && c ≤ 'f' then some (c.toNat - 87)
  else if 'A' ≤ c && c ≤ 'F' then some (c.toNat - 55)
  else none

/-- The value of four digits in base sixteen, if the text starts with them. -/
def fourHex? : List Char → Option (Nat × List Char)
  | a :: b :: c :: d :: rest => do
    let a ← hexValue? a
    let b ← hexValue? b
    let c ← hexValue? c
    let d ← hexValue? d
    return (((a * 16 + b) * 16 + c) * 16 + d, rest)
  | _ => none

def byteCount (cs : List Char) : Nat := cs.foldl (fun n c => n + c.utf8Size) 0

/-- Takes the four digits of an escape. -/
def hexEscape : Reader Nat := fun cur =>
  match fourHex? cur.rest with
  | some (n, rest) => .ok (n, ⟨rest, cur.line, cur.column + 4⟩)
  | none =>
    if byteCount (cur.rest.take 4) < 4 then
      .error ((cur.skipBytes (byteCount cur.rest) cur.rest).here .endInString)
    else .error ((cur.skipBytes 4 cur.rest).here .invalidEscape)

/-- Takes the character `c`, which an escape needs for its second half. -/
def secondHalf (c : Char) : Reader Unit := do
  match ← peek with
  | none => failHere .endInString
  | some d =>
    advance
    if d = c then pure () else failHere .surrogateCut

/-- What stands after a backslash and `u`: one character, or two halves of one. -/
def unicodeEscape : Reader Char := do
  let n ← hexEscape
  if 0xDC00 ≤ n && n ≤ 0xDFFF then failHere .loneSurrogate
  else if 0xD800 ≤ n && n ≤ 0xDBFF then
    secondHalf '\\'
    secondHalf 'u'
    let m ← hexEscape
    if 0xDC00 ≤ m && m ≤ 0xDFFF then
      return Char.ofNat ((n - 0xD800) * 0x400 + (m - 0xDC00) + 0x10000)
    else failHere .loneSurrogate
  else return Char.ofNat n

/-- What stands after a backslash. -/
def escape : Reader Char := do
  match ← next with
  | none => failHere .endInString
  | some '"' => return '"'
  | some '\\' => return '\\'
  | some '/' => return '/'
  | some 'b' => return '\x08'
  | some 'f' => return '\x0c'
  | some 'n' => return '\n'
  | some 'r' => return '\r'
  | some 't' => return '\t'
  | some 'u' => unicodeEscape
  | some _ => failHere .invalidEscape

/-- The rest of a string and its closing quote; `taken` holds its characters in reverse. -/
def stringRest : (fuel : Nat) → (taken : List Char) → Reader String
  | 0, _ => failHere .endInString
  | fuel + 1, taken => do
    match ← next with
    | none => failHere .endInString
    | some '"' => return String.ofList taken.reverse
    | some '\\' =>
      let c ← escape
      stringRest fuel (c :: taken)
    | some c =>
      if c.toNat < 0x20 then failHere .controlCharacter else stringRest fuel (c :: taken)

/-- A string whose opening quote is next. -/
def string : Reader String := do
  advance
  stringRest ((← remaining) + 1) []

/-! ## Section 2: Words -/

/-- The rest of a word. -/
def wordRest : List Char → Reader Unit
  | [] => return ()
  | w :: rest => do
    match ← next with
    | none => failHere .endInValue
    | some c => if c = w then wordRest rest else failHere .wordExpected

/-- A word whose first letter is next. -/
def word (rest : List Char) : Reader Unit := do
  advance
  wordRest rest

/-! ## Section 3: Numbers -/

/-- Takes the digits that are next. -/
def digits : Reader (List Nat) := fun cur =>
  let ds := cur.rest.takeWhile Char.isDigit
  .ok (ds.map fun c => c.toNat - 48, ⟨cur.rest.drop ds.length, cur.line, cur.column + ds.length⟩)

/-- Digits of a number as far as they fit a word, and the power of ten to scale them by. -/
structure Significand where
  digits : Nat
  exponent : Int
deriving DecidableEq

/-- One more digit before the point; once one does not fit, all others count as zeros. -/
def Significand.pushWhole (s : Significand) (d : Nat) : Significand :=
  if s.exponent = 0 && s.digits * 10 + d < Nat.pow 2 64 then ⟨s.digits * 10 + d, 0⟩
  else ⟨s.digits, s.exponent + 1⟩

/-- The digits after the point; once one does not fit, all others are ignored. -/
def Significand.pushFraction (s : Significand) : List Nat → Significand
  | [] => s
  | d :: rest =>
    if s.digits * 10 + d < Nat.pow 2 64 then
      pushFraction ⟨s.digits * 10 + d, s.exponent - 1⟩ rest
    else s

/-- Multiplies or divides `x` by a power of ten; nothing if it gets too large. -/
def scaleDouble : (fuel : Nat) → Binary64 → (exponent : Int) → Option Binary64
  | 0, x, _ => some x
  | fuel + 1, x, exponent =>
    if exponent.natAbs ≤ 308 then
      let power := Binary64.ofDecimal false 1 exponent.natAbs
      if 0 ≤ exponent then
        let y := x.mul power
        if y.isInfinite then none else some y
      else some (x.div power)
    else if x.isZero then some x
    else if 0 ≤ exponent then none
    -- A smaller power of ten than a double can hold is divided by in steps.
    else scaleDouble fuel (x.div (Binary64.ofDecimal false 1 308)) (exponent + 308)

/-- The double that a significand with a sign stands for. -/
def double (negative : Bool) (s : Significand) : Reader Number := do
  match scaleDouble 8 (Binary64.ofNat s.digits) s.exponent with
  | none => failHere .numberOutOfRange
  | some x => return .double (if negative then x.neg else x)

/-- The greatest exponent that is told apart from infinity. -/
def greatestExponent : Nat := 2147483647

/-- Takes digits of an exponent up to the first that makes it exceed `greatestExponent`.
    The answer is nothing in that case. -/
def exponentDigits : (fuel : Nat) → (value : Nat) → Reader (Option Nat)
  | 0, value => return some value
  | fuel + 1, value => do
    match ← peek with
    | some c =>
      if c.isDigit then
        advance
        let value := value * 10 + (c.toNat - 48)
        if greatestExponent < value then return none else exponentDigits fuel value
      else return some value
    | none => return some value

/-- An exponent whose mark is next, after the significand `s`. -/
def withExponent (negative : Bool) (s : Significand) : Reader Number := do
  advance
  let down := (← peek) == some '-'
  if down || (← peek) == some '+' then advance
  match ← next with
  | none => failHere .endInValue
  | some c =>
    if !c.isDigit then failHere .invalidNumber
    else
      match ← exponentDigits (← remaining) (c.toNat - 48) with
      | some e => double negative ⟨s.digits, if down then s.exponent - e else s.exponent + e⟩
      | none =>
        -- Zero stays zero, and any other number vanishes if it is scaled down that far.
        if s.digits ≠ 0 && !down then failHere .numberOutOfRange
        else
          let _ ← digits
          return .double (Binary64.ofMagnitude negative 0)

def isExponentMark (c : Option Char) : Bool := c == some 'e' || c == some 'E'

/-- A fraction whose point is next, after the significand `s`. -/
def withFraction (negative : Bool) (s : Significand) : Reader Number := do
  advance
  let ds ← digits
  if ds.isEmpty then
    if (← peek).isNone then failAhead .endInValue else failAhead .invalidNumber
  else
    let s := s.pushFraction ds
    if isExponentMark (← peek) then withExponent negative s else double negative s

/-- A number without a fraction and an exponent. -/
def wholeNumber (negative : Bool) (s : Significand) : Reader Number := do
  if s.exponent ≠ 0 then double negative s
  -- No whole number is minus zero.
  else if negative && s.digits = 0 then return .double (Binary64.ofMagnitude true 0)
  else
    match Whole.ofInt? (if negative then -(s.digits : Int) else s.digits) with
    | some n => return .whole n
    -- Only a negative number can fail to fit: the digits themselves fit a word.
    | none => return .double ((Binary64.ofNat s.digits).neg)

/-- A number whose first digit is next. -/
def unsigned (negative : Bool) : Reader Number := do
  match ← next with
  | none => failHere .endInValue
  | some c =>
    if !c.isDigit then failHere .invalidNumber
    else
      let more ← if c = '0' then pure [] else digits
      -- A zero at the front stands alone.
      if c = '0' && ((← peek).map Char.isDigit).getD false then failAhead .invalidNumber
      else
        let s := ((c.toNat - 48) :: more).foldl Significand.pushWhole ⟨0, 0⟩
        match ← peek with
        | some '.' => withFraction negative s
        | m => if isExponentMark m then withExponent negative s else wholeNumber negative s

/-- A number whose first character, a sign or a digit, is next. -/
def number : Reader Number := do
  if (← peek) == some '-' then
    advance
    unsigned true
  else unsigned false

end StackSurvey.Json.Reader
