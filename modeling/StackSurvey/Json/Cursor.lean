import StackSurvey.Mismatch

/-! # Places in a JSON text

    A fault names a line and a column.  Lines count from one; a column is the number of bytes
    of the line up to and including the offending one, so it is 0 only where nothing of the
    line has been taken.  A fault is either `here` (all that was taken is to blame) or `ahead`
    (the next byte is). -/

namespace StackSurvey.Json

/-- What can be wrong with a JSON text. -/
inductive Problem where
  | endInValue
  | endInList
  | endInObject
  | endInString
  | valueExpected
  | wordExpected
  | colonExpected
  | commaOrBracketExpected
  | commaOrBraceExpected
  | keyNotText
  | trailingComma
  | trailingCharacters
  | invalidNumber
  | numberOutOfRange
  | invalidEscape
  | loneSurrogate
  | surrogateCut
  | controlCharacter
  | tooDeep
  /-- Well-formed so far, but not what was asked for. -/
  | mismatch (m : Mismatch)
deriving DecidableEq

def Problem.message : Problem → String
  | .endInValue => "EOF while parsing a value"
  | .endInList => "EOF while parsing a list"
  | .endInObject => "EOF while parsing an object"
  | .endInString => "EOF while parsing a string"
  | .valueExpected => "expected value"
  | .wordExpected => "expected ident"
  | .colonExpected => "expected `:`"
  | .commaOrBracketExpected => "expected `,` or `]`"
  | .commaOrBraceExpected => "expected `,` or `\x7d`"
  | .keyNotText => "key must be a string"
  | .trailingComma => "trailing comma"
  | .trailingCharacters => "trailing characters"
  | .invalidNumber => "invalid number"
  | .numberOutOfRange => "number out of range"
  | .invalidEscape => "invalid escape"
  | .loneSurrogate => "lone leading surrogate in hex escape"
  | .surrogateCut => "unexpected end of hex escape"
  | .controlCharacter => "control character (\\u0000-\\u001F) found while parsing a string"
  | .tooDeep => "recursion limit exceeded"
  | .mismatch m => m.message Binary64.compact

/-- A problem and its place. -/
structure Fault where
  problem : Problem
  line : Nat
  column : Nat
deriving DecidableEq

def Fault.message (f : Fault) : String :=
  f.problem.message ++ " at line " ++ toString f.line ++ " column " ++ toString f.column

/-- The text still to be read, and where it starts. -/
structure Cursor where
  rest : List Char
  line : Nat
  column : Nat

namespace Cursor

def start (text : List Char) : Cursor := ⟨text, 1, 0⟩

/-- The place after `c`, before `rest`. -/
def past (cur : Cursor) (c : Char) (rest : List Char) : Cursor :=
  if c = '\n' then ⟨rest, cur.line + 1, 0⟩ else ⟨rest, cur.line, cur.column + c.utf8Size⟩

/-- Takes `count` bytes; a character of which only some bytes are taken is dropped too. -/
def skipBytes (cur : Cursor) : (count : Nat) → (chars : List Char) → Cursor
  | count, c :: rest =>
    if count = 0 then cur
    else if c.utf8Size ≤ count then (cur.past c rest).skipBytes (count - c.utf8Size) rest
    else ⟨rest, cur.line, cur.column + count⟩
  | _, [] => cur

/-- A fault of what was taken. -/
def here (cur : Cursor) (p : Problem) : Fault := ⟨p, cur.line, cur.column⟩

/-- A fault of the next byte, if there is one. -/
def ahead (cur : Cursor) (p : Problem) : Fault :=
  match cur.rest with
  | [] => cur.here p
  | c :: _ => if c = '\n' then ⟨p, cur.line + 1, 0⟩ else ⟨p, cur.line, cur.column + 1⟩

end Cursor

/-- Reading moves the cursor forward or fails. -/
abbrev Reader : Type → Type := StateT Cursor (Except Fault)

namespace Reader

/-- Fails over what was taken. -/
def failHere {α : Type} (p : Problem) : Reader α := fun cur => .error (cur.here p)

/-- Fails over the next byte. -/
def failAhead {α : Type} (p : Problem) : Reader α := fun cur => .error (cur.ahead p)

/-- The next character, which stays. -/
def peek : Reader (Option Char) := fun cur => .ok (cur.rest.head?, cur)

def next : Reader (Option Char) := fun cur =>
  match cur.rest with
  | [] => .ok (none, cur)
  | c :: rest => .ok (some c, cur.past c rest)

def advance : Reader Unit := do let _ ← next

/-- White space between the tokens of a JSON text. -/
def isSpace (c : Char) : Bool := c = ' ' || c = '\n' || c = '\t' || c = '\r'

/-- The cursor after white space. -/
def skipSpaces (cur : Cursor) : List Char → Cursor
  | c :: rest => if isSpace c then skipSpaces (cur.past c rest) rest else cur
  | [] => cur

/-- Skips white space and looks at the next character. -/
def peekToken : Reader (Option Char) := fun cur =>
  let cur := skipSpaces cur cur.rest
  .ok (cur.rest.head?, cur)

def remaining : Reader Nat := fun cur => .ok (cur.rest.length, cur)

end Reader
end StackSurvey.Json
