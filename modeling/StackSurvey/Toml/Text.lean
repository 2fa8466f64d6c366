import StackSurvey.Toml.Cursor

/-! # Strings and keys

    Strings come in four kinds: with escapes or without, on one line or on several.  A line break
    right after the opening quotes of a string on several lines does not count, and a backslash
    at the end of a line joins it with the next line that is not blank. -/

namespace StackSurvey.Toml.Reader

/-! ## Section 1: Escapes -/

/-- Takes `count` digits in base sixteen. -/
def hexDigits : (count : Nat) → (value : Nat) → Reader Nat
  | 0, value => return value
  | count + 1, value => do
    let c ← next
    if c.isDigit then hexDigits count (value * 16 + (c.toNat - 48))
    else if 'a' ≤ c && c ≤ 'f' then hexDigits count (value * 16 + (c.toNat - 87))
    else if 'A' ≤ c && c ≤ 'F' then hexDigits count (value * 16 + (c.toNat - 55))
    else fail

/-- The character of a code point. -/
def ofCodePoint (n : Nat) : Reader Char :=
  if n < 0xD800 || (0xDFFF < n && n < 0x110000) then return Char.ofNat n else fail

/-- What stands after a backslash. -/
def escape : Reader Char := do
  match ← next with
  | 'b' => return '\x08'
  | 't' => return '\t'
  | 'n' => return '\n'
  | 'f' => return '\x0c'
  | 'r' => return '\r'
  | 'e' => return '\x1b'
  | '"' => return '"'
  | '\\' => return '\\'
  | 'x' => ofCodePoint (← hexDigits 2 0)
  | 'u' => ofCodePoint (← hexDigits 4 0)
  | 'U' => ofCodePoint (← hexDigits 8 0)
  | _ => fail

/-! ## Section 2: Strings -/

/-- The rest of a string on one line, up to the closing `quote`. -/
def lineRest (quote : Char) : (fuel : Nat) → (taken : List Char) → Reader String
  | 0, _ => fail
  | fuel + 1, taken => do
    let c ← next
    if c = quote then return String.ofList taken.reverse
    else if c = '\\' && quote = '"' then lineRest quote fuel ((← escape) :: taken)
    else if isPlain c then lineRest quote fuel (c :: taken)
    else fail

/-- Drops white space and line breaks. -/
def joinLines : (fuel : Nat) → Reader Unit
  | 0 => return ()
  | fuel + 1 => do
    spaces
    if ← lineBreak? then joinLines fuel

/-- The rest of a string on several lines, up to three closing quotes.  One or two more quotes
    before them belong to the string. -/
def blockRest (quote : Char) : (fuel : Nat) → (taken : List Char) → Reader String
  | 0, _ => fail
  | fuel + 1, taken => do
    if ← literal? ['\r', '\n'] then blockRest quote fuel ('\n' :: '\r' :: taken)
    else if ← literal? [quote, quote, quote] then
      -- Up to two more quotes belong to the text.
      let more ← run (· = quote)
      if 2 < more.length then fail
      else return String.ofList (more ++ taken).reverse
    else
      let c ← next
      if c = '\\' && quote = '"' then
        match ← peek with
        | some d =>
          -- A backslash at the end of a line joins it with what follows.
          if isSpace d || d = '\n' || d = '\r' then
            spaces
            if ← lineBreak? then
              joinLines fuel
              blockRest quote fuel taken
            else fail
          else blockRest quote fuel ((← escape) :: taken)
        | none => fail
      else if isPlain c || c = '\n' then blockRest quote fuel (c :: taken)
      else fail

/-- A string on one line. -/
def lineQuoted : Reader String := do
  let quote ← next
  lineRest quote ((← remaining) + 1) []

/-- A string on one line or, after three quotes, on several. -/
def quoted : Reader String := do
  let quote ← next
  let fuel := (← remaining) + 1
  if ← literal? [quote, quote] then
    let _ ← lineBreak?
    blockRest quote fuel []
  else lineRest quote fuel []

/-! ## Section 3: Keys -/

/-- May `c` stand in a key without quotes? -/
def isKeyChar (c : Char) : Bool := c.isAlphanum || c = '_' || c = '-'

/-- One part of a key, and where it stands. -/
structure Key where
  name : String
  span : Span

def keyPart : Reader Key := do
  let start ← offset
  let name ←
    if (← peek) == some '"' || (← peek) == some '\'' then lineQuoted
    else do
      let cs ← run isKeyChar
      if cs.isEmpty then fail else pure (String.ofList cs)
  return ⟨name, ⟨start, ← offset⟩⟩

/-- A key: parts with points between them. -/
def keyParts : (fuel : Nat) → Reader (List Key)
  | 0 => fail
  | fuel + 1 => do
    let part ← keyPart
    spaces
    if (← peek) == some '.' then
      advance
      spaces
      return part :: (← keyParts fuel)
    else return [part]

/-- A key: parts with points between them. -/
def key : Reader (List Key) := do keyParts ((← remaining) + 1)

end StackSurvey.Toml.Reader
