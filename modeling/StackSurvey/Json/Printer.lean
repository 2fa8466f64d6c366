import StackSurvey.Json.Value

/-! # Writing JSON

    Two layouts of one format: `compact` has no white space at all, `pretty` puts every item and
    member on a line of its own, indented by two spaces a level. -/

namespace StackSurvey.Json

/-! ## Section 1: Scalars -/

/-- A digit in base sixteen, in lower case. -/
def hexDigit (n : Nat) : Char := Nat.digitChar (n % 16)

/-- One character inside a string. -/
def escapeChar (c : Char) : List Char :=
  if c = '"' then ['\\', '"']
  else if c = '\\' then ['\\', '\\']
  else if c = '\x08' then ['\\', 'b']
  else if c = '\t' then ['\\', 't']
  else if c = '\n' then ['\\', 'n']
  else if c = '\x0c' then ['\\', 'f']
  else if c = '\r' then ['\\', 'r']
  else if c.toNat < 0x20 then
    ['\\', 'u', '0', '0', hexDigit (c.toNat / 16), hexDigit c.toNat]
  else [c]

def quoted (s : String) : List Char := '"' :: s.toList.flatMap escapeChar ++ ['"']

def wholeChars (n : Int) : List Char :=
  if n < 0 then '-' :: Binary64.digitsOf n.natAbs else Binary64.digitsOf n.natAbs

def numberChars : Number → List Char
  | .whole n => wholeChars n.val
  | .double x => x.compact

def flagChars (b : Bool) : List Char :=
  if b then ['t', 'r', 'u', 'e'] else ['f', 'a', 'l', 's', 'e']

/-! ## Section 2: The compact layout -/

mutual

/-- A value without white space. -/
def compactChars : Json → List Char
  | .null => ['n', 'u', 'l', 'l']
  | .flag b => flagChars b
  | .number n => numberChars n
  | .text s => quoted s
  | .list [] => ['[', ']']
  | .list (x :: xs) => '[' :: compactChars x ++ compactItems xs
  | .object [] => ['\x7b', '\x7d']
  | .object ((k, v) :: rest) => '\x7b' :: quoted k ++ ':' :: compactChars v ++ compactMembers rest

/-- The items after the first one, and the closing bracket. -/
def compactItems : List Json → List Char
  | [] => [']']
  | x :: xs => ',' :: compactChars x ++ compactItems xs

/-- The members after the first one, and the closing brace. -/
def compactMembers : List (String × Json) → List Char
  | [] => ['\x7d']
  | (k, v) :: rest => ',' :: quoted k ++ ':' :: compactChars v ++ compactMembers rest

end

def compact (value : Json) : String := String.ofList (compactChars value)

/-! ## Section 3: The pretty layout -/

/-- A line break and the indentation of a level. -/
def newline (level : Nat) : List Char := '\n' :: List.replicate (2 * level) ' '

mutual

/-- A value whose own line is indented to `level`. -/
def prettyChars (level : Nat) : Json → List Char
  | .null => ['n', 'u', 'l', 'l']
  | .flag b => flagChars b
  | .number n => numberChars n
  | .text s => quoted s
  | .list [] => ['[', ']']
  | .list (x :: xs) =>
    '[' :: newline (level + 1) ++ prettyChars (level + 1) x ++ prettyItems level xs
  | .object [] => ['\x7b', '\x7d']
  | .object ((k, v) :: rest) =>
    '\x7b' :: newline (level + 1) ++ quoted k ++ ':' :: ' ' :: prettyChars (level + 1) v ++
      prettyMembers level rest

/-- The items after the first one, and the closing bracket. -/
def prettyItems (level : Nat) : List Json → List Char
  | [] => newline level ++ [']']
  | x :: xs =>
    ',' :: newline (level + 1) ++ prettyChars (level + 1) x ++ prettyItems level xs

/-- The members after the first one, and the closing brace. -/
def prettyMembers (level : Nat) : List (String × Json) → List Char
  | [] => newline level ++ ['\x7d']
  | (k, v) :: rest =>
    ',' :: newline (level + 1) ++ quoted k ++ ':' :: ' ' :: prettyChars (level + 1) v ++
      prettyMembers level rest

end

def pretty (value : Json) : String := String.ofList (prettyChars 0 value)

end StackSurvey.Json
