import StackSurvey.Toml.Value

/-! # Places in a TOML text

    Reading a TOML text moves a cursor that counts bytes.  A failure carries the place where it
    was noticed. -/

namespace StackSurvey.Toml

/-- The text still to be read, and how many bytes were taken. -/
structure Cursor where
  rest : List Char
  offset : Nat

/-- Reading moves the cursor forward or fails at a place. -/
abbrev Reader : Type → Type := StateT Cursor (Except Nat)

namespace Reader

/-- Fails here. -/
def fail {α : Type} : Reader α := fun cur => .error cur.offset

/-- The next character, which stays. -/
def peek : Reader (Option Char) := fun cur => .ok (cur.rest.head?, cur)

/-- The character after the next one. -/
def peekSecond : Reader (Option Char) := fun cur => .ok (cur.rest.tail.head?, cur)

def offset : Reader Nat := fun cur => .ok (cur.offset, cur)

def remaining : Reader Nat := fun cur => .ok (cur.rest.length, cur)

def next : Reader Char := fun cur =>
  match cur.rest with
  | [] => .error cur.offset
  | c :: rest => .ok (c, ⟨rest, cur.offset + c.utf8Size⟩)

def advance : Reader Unit := do let _ ← next

/-- Takes the longest run of characters on which `p` holds. -/
def run (p : Char → Bool) : Reader (List Char) := fun cur =>
  let taken := cur.rest.takeWhile p
  .ok (taken, ⟨cur.rest.drop taken.length, cur.offset + byteLength taken⟩)

/-- Takes `chars` if they are next. -/
def literal? (chars : List Char) : Reader Bool := fun cur =>
  if chars.isPrefixOf cur.rest then
    .ok (true, ⟨cur.rest.drop chars.length, cur.offset + byteLength chars⟩)
  else .ok (false, cur)

/-- Takes `c`, which must be next. -/
def expect (c : Char) : Reader Unit := do
  if (← peek) == some c then advance else fail

/-! ## Section 1: White space and comments -/

/-- White space within a line. -/
def isSpace (c : Char) : Bool := c = ' ' || c = '\t'

/-- May `c` stand in a comment or a string? -/
def isPlain (c : Char) : Bool := c = '\t' || (0x20 ≤ c.toNat && c.toNat ≠ 0x7F)

def spaces : Reader Unit := do let _ ← run isSpace

/-- Takes a line break if one is next. -/
def lineBreak? : Reader Bool := do
  if ← literal? ['\n'] then return true else literal? ['\r', '\n']

/-- Drops a comment if one is next. -/
def comment : Reader Unit := do
  if (← peek) == some '#' then
    let _ ← run isPlain

/-- Drops white space, comments and line breaks. -/
def gap : (fuel : Nat) → Reader Unit
  | 0 => return ()
  | fuel + 1 => do
    spaces
    comment
    if ← lineBreak? then gap fuel

/-- Drops white space, comments and line breaks. -/
def blankLines : Reader Unit := do gap ((← remaining) + 1)

/-- Drops what may follow on the line, up to the line break. -/
def endOfLine : Reader Unit := do
  spaces
  comment
  if (← peek).isNone then return ()
  if ← lineBreak? then return () else fail

end Reader
end StackSurvey.Toml
