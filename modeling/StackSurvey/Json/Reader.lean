import StackSurvey.Json.Scalars

/-! # Reading JSON values

    `value` reads any value, `skipValue` passes over one without looking at what it says, and
    the forms of Section 3 read values that must be of a certain kind.  Brackets may nest 127
    deep; passing over a value has no such limit. -/

namespace StackSurvey.Json

/-- How deep brackets may nest. -/
def nestingLimit : Nat := 127

namespace Reader

/-! ## Section 1: Brackets -/

/-- The items of a list whose opening bracket was taken, and the closing bracket. -/
def listRest {α : Type} (item : Reader α) : (fuel : Nat) → (first : Bool) → Reader (List α)
  | 0, _ => failHere .endInList
  | fuel + 1, first => do
    match ← peekToken with
    | none => failAhead .endInList
    | some ']' =>
      advance
      return []
    -- `c` starts an item, or it separates one from the item before.
    | some c =>
      if !first then
        if c = ',' then
          advance
          match ← peekToken with
          | none => failAhead .endInValue
          | some ']' => failAhead .trailingComma
          | some _ => pure ()
        else failAhead .commaOrBracketExpected
      let x ← item
      let xs ← listRest item fuel false
      return x :: xs

/-- A list whose opening bracket is next. -/
def list {α : Type} (item : Reader α) : Reader (List α) := do
  advance
  listRest item ((← remaining) + 1) true

def colon : Reader Unit := do
  match ← peekToken with
  | none => failAhead .endInObject
  | some ':' => advance
  | some _ => failAhead .colonExpected

/-- The members of an object whose opening brace was taken, and the closing brace.  `member`
    takes what stands after each key, the colon first. -/
def objectRest {σ : Type} (member : σ → String → Reader σ) :
    (fuel : Nat) → (first : Bool) → σ → Reader σ
  | 0, _, _ => failHere .endInObject
  | fuel + 1, first, s => do
    match ← peekToken with
    | none => failAhead .endInObject
    | some '\x7d' =>
      advance
      return s
    -- Before any member but the first there is a comma.
    | some c =>
      if first then
        if c ≠ '"' then failAhead .keyNotText
      else if c = ',' then
        advance
        match ← peekToken with
        | none => failAhead .endInValue
        | some '"' => pure ()
        | some '\x7d' => failAhead .trailingComma
        | some _ => failAhead .keyNotText
      else failAhead .commaOrBraceExpected
      let key ← string
      let s ← member s key
      objectRest member fuel false s

/-- An object whose opening brace is next. -/
def object {σ : Type} (member : σ → String → Reader σ) (s : σ) : Reader σ := do
  advance
  objectRest member ((← remaining) + 1) true s

/-- Spends one level of nesting on `read`. -/
def nested {α : Type} (depth : Nat) (read : Nat → Reader α) : Reader α :=
  match depth with
  | 0 => failAhead .tooDeep
  | depth + 1 => read depth

/-! ## Section 2: Any value -/

/-- A member of an object with any value.  A repeated name keeps its first place and takes the
    last value. -/
def anyMember (item : Reader Json) (members : Dictionary Json) (name : String) :
    Reader (Dictionary Json) := do
  colon
  let v ← item
  return Dictionary.put name v members

/-- Any value, its items and members being read by `inner`; nothing may be nested if that is
    missing. -/
def valueOver (inner : Option (Reader Json)) : Reader Json := do
  match ← peekToken with
  | none => failAhead .endInValue
  | some 'n' =>
    word ['u', 'l', 'l']
    return .null
  | some 't' =>
    word ['r', 'u', 'e']
    return .flag true
  | some 'f' =>
    word ['a', 'l', 's', 'e']
    return .flag false
  | some '"' => return .text (← string)
  | some '[' =>
    match inner with
    | none => failAhead .tooDeep
    | some item => return .list (← list item)
  | some '\x7b' =>
    match inner with
    | none => failAhead .tooDeep
    | some item => return .object (← object (anyMember item) [])
  | some c =>
    if c = '-' || c.isDigit then return .number (← number) else failAhead .valueExpected

/-- Any value whose brackets nest at most `depth` deep. -/
def value : (depth : Nat) → Reader Json
  | 0 => valueOver none
  | depth + 1 => valueOver (some (value depth))

/-! ## Section 3: Passing over a value -/

/-- The four digits of an escape are taken, and no more is asked of them. -/
def skipEscape : Reader Unit := do
  match ← next with
  | none => failHere .endInString
  | some 'u' =>
    let _ ← hexEscape
  | some c => if "\"\\/bfnrt".toList.contains c then pure () else failHere .invalidEscape

/-- The rest of a string and its closing quote. -/
def skipStringRest : (fuel : Nat) → Reader Unit
  | 0 => failHere .endInString
  | fuel + 1 => do
    match ← peek with
    | none => failHere .endInString
    | some '"' => advance
    | some '\\' =>
      advance
      skipEscape
      skipStringRest fuel
    | some c =>
      if c.toNat < 0x20 then failHere .controlCharacter
      else
        advance
        skipStringRest fuel

/-- A string whose opening quote is next. -/
def skipString : Reader Unit := do
  advance
  skipStringRest ((← remaining) + 1)

/-- An exponent whose mark is next. -/
def skipExponent : Reader Unit := do
  advance
  if (← peek) == some '-' || (← peek) == some '+' then advance
  match ← next with
  | some c =>
    if c.isDigit then
      let _ ← digits
    else failHere .invalidNumber
  | none => failHere .invalidNumber

/-- A number whose first character, a sign or a digit, is next. -/
def skipNumber : Reader Unit := do
  if (← peek) == some '-' then advance
  match ← next with
  | none => failHere .invalidNumber
  | some c =>
    if !c.isDigit then failHere .invalidNumber
    -- No digit may follow a zero at the front.
    else if c = '0' then
      if ((← peek).map Char.isDigit).getD false then failAhead .invalidNumber
    else
      let _ ← digits
    match ← peek with
    | some '.' =>
      advance
      if (← digits).isEmpty then failAhead .invalidNumber
      if isExponentMark (← peek) then skipExponent
    | m => if isExponentMark m then skipExponent

/-- An opened bracket. -/
inductive Bracket where
  | list
  | object
deriving DecidableEq

/-- What a missing separator inside a bracket is called. -/
def Bracket.separatorExpected : Bracket → Problem
  | .list => .commaOrBracketExpected
  | .object => .commaOrBraceExpected

/-- What the end of the text inside a bracket is called. -/
def Bracket.endInside : Bracket → Problem
  | .list => .endInList
  | .object => .endInObject

/-- Closes brackets until an item or a member is due; `done` says that one has just ended.
    The answer is what is still open. -/
def closeBrackets : (fuel : Nat) → (done : Bool) → List Bracket → Reader (List Bracket)
  | _, _, [] => return []
  | 0, _, bracket :: _ => failHere bracket.endInside
  | fuel + 1, done, bracket :: outer => do
    match ← peekToken with
    | none => failAhead bracket.endInside
    | some c =>
      -- A comma asks for more inside the same bracket.
      if c = ',' && done then
        advance
        return bracket :: outer
      else if (c = ']' && bracket = .list) || (c = '\x7d' && bracket = .object) then
        advance
        closeBrackets fuel true outer
      else if done then failAhead bracket.separatorExpected
      else return bracket :: outer

/-- The key of a member and its colon. -/
def skipKey : Reader Unit := do
  match ← peekToken with
  | some '"' => skipString
  | some _ => failAhead .keyNotText
  | none => failAhead .endInObject
  colon

/-- Passes over the rest of a value, inside the brackets that are open. -/
def skipInside : (fuel : Nat) → List Bracket → Reader Unit
  | 0, _ => failHere .endInValue
  | fuel + 1, opened => do
    let opened ←
      match ← peekToken with
      | none => failAhead .endInValue
      | some 'n' =>
        word ['u', 'l', 'l']
        closeBrackets fuel true opened
      | some 't' =>
        word ['r', 'u', 'e']
        closeBrackets fuel true opened
      | some 'f' =>
        word ['a', 'l', 's', 'e']
        closeBrackets fuel true opened
      | some '"' =>
        skipString
        closeBrackets fuel true opened
      -- An opened bracket is put on the stack, as nothing in it has been read yet.
      | some '[' =>
        advance
        closeBrackets fuel false (.list :: opened)
      | some '\x7b' =>
        advance
        closeBrackets fuel false (.object :: opened)
      | some c =>
        if c = '-' || c.isDigit then
          skipNumber
          closeBrackets fuel true opened
        else failAhead .valueExpected
    match opened with
    | [] => return ()
    | bracket :: _ =>
      if bracket = .object then skipKey
      skipInside fuel opened

def skipValue : Reader Unit := do
  skipInside ((← remaining) + 2) []

/-! ## Section 4: Values of a certain kind -/

/-- Fails over a value that is not of the kind `wanted`.  A scalar is taken first, so that a
    fault inside it comes before the mismatch. -/
def wrongKind {α : Type} (wanted : String) : Reader α := do
  let found : Found ←
    match ← peek with
    | some 'n' =>
      word ['u', 'l', 'l']
      pure .null
    | some 't' =>
      word ['r', 'u', 'e']
      pure (.flag true)
    | some 'f' =>
      word ['a', 'l', 's', 'e']
      pure (.flag false)
    | some '"' => pure (.text (← string))
    -- The inside of a bracket does not matter for the message.
    | some '[' => pure .sequence
    | some '\x7b' => pure .map
    | some c =>
      if c = '-' || c.isDigit then
        match ← number with
        | .whole n => pure (.whole n.val)
        | .double x => pure (.double x)
      else failAhead .valueExpected
    | none => failAhead .valueExpected
  failHere (.mismatch (.wrongKind found wanted))

/-- The first character of a value. -/
def startOfValue : Reader Char := do
  match ← peekToken with
  | none => failAhead .endInValue
  | some c => return c

def text : Reader String := do
  if (← startOfValue) = '"' then string else wrongKind "a string"

def flag : Reader Bool := do
  match ← startOfValue with
  | 't' =>
    word ['r', 'u', 'e']
    return true
  | 'f' =>
    word ['a', 'l', 's', 'e']
    return false
  | _ => wrongKind "a boolean"

/-- A natural number of 64 bits, called `wanted`. -/
def natural (wanted : String) : Reader Nat := do
  let c ← startOfValue
  if c = '-' || c.isDigit then
    match ← number with
    | .whole n =>
      if 0 ≤ n.val then return n.val.toNat
      else failHere (.mismatch (.wrongValue (.whole n.val) wanted))
    | .double x => failHere (.mismatch (.wrongKind (.double x) wanted))
  else wrongKind wanted

/-- A value or `null`. -/
def optional {α : Type} (read : Reader α) : Reader (Option α) := do
  if (← peekToken) == some 'n' then
    word ['u', 'l', 'l']
    return none
  else return some (← read)

def sequence {α : Type} (item : Nat → Reader α) (depth : Nat) : Reader (List α) := do
  if (← startOfValue) = '[' then nested depth fun depth => list (item depth)
  else wrongKind "a sequence"

/-- Named values; `enter` adds one, for a repeated name the last. -/
def map {α : Type} (enter : String → α → Dictionary α → Dictionary α) (item : Nat → Reader α)
    (depth : Nat) : Reader (Dictionary α) := do
  if (← startOfValue) = '\x7b' then
    nested depth fun depth => object (fun entries key => do
      colon
      let v ← item depth
      return enter key v entries) []
  else wrongKind "a map"

/-! ## Section 5: Records -/

/-- A field of a record that is gathered in `σ`. -/
structure Field (σ : Type) where
  name : String
  required : Bool
  /-- Reads the value and stores it. -/
  read : Nat → σ → Reader σ

/-- Fails over a member whose field came before.  White space and a brace that closes the
    record are taken, and the place is the one after them. -/
def repeatedField {α : Type} (name : String) : Reader α := do
  if (← peekToken) == some '\x7d' then advance
  failHere (.mismatch (.repeatedField name))

/-- Takes a member of a record.  The state holds the names that came before. -/
def recordMember {σ : Type} (fields : List (Field σ)) (depth : Nat) :
    σ × List String → String → Reader (σ × List String) := fun (x, seen) name => do
  match fields.find? fun f => f.name = name with
  | none =>
    colon
    skipValue
    return (x, seen)
  | some field =>
    if seen.contains name then repeatedField name
    else
      colon
      return (← field.read depth x, name :: seen)

/-- The fields of a record in the order of their declaration, without names.  The list may end
    early if no required field is left out. -/
def recordItems {σ : Type} (wanted : String) (depth : Nat) (count : Nat) :
    List (Field σ) → σ → Reader σ
  | [], x => do
    match ← peekToken with
    | some ']' =>
      advance
      return x
    | some ',' =>
      advance
      if (← peekToken) == some ']' then failAhead .trailingComma
      else failAhead .trailingCharacters
    | some _ => failAhead .trailingCharacters
    | none => failAhead .endInList
  | field :: fields, x => do
    match ← peekToken with
    | none => failAhead .endInList
    | some ']' =>
      advance
      -- The fields that are left keep their defaults, unless one of them is required.
      match (field :: fields).findIdx? (·.required) with
      | some i => failHere (.mismatch (.wrongLength (count + i) wanted))
      | none => return x
    | some c =>
      if 0 < count then
        if c = ',' then
          advance
          match ← peekToken with
          | none => failAhead .endInValue
          | some ']' => failAhead .trailingComma
          | some _ => pure ()
        else failAhead .commaOrBracketExpected
      let x ← field.read depth x
      recordItems wanted depth (count + 1) fields x

/-- The wording for a record that should have been a list of all its fields. -/
def recordLength (name : String) (count : Nat) : String :=
  "struct " ++ name ++ " with " ++ toString count ++
    (if count = 1 then " element" else " elements")

/-- A record: an object with its fields, others being passed over, or a list of its fields. -/
def record {σ : Type} (name : String) (fields : List (Field σ)) (blank : σ) (depth : Nat) :
    Reader σ := do
  match ← startOfValue with
  | '[' =>
    nested depth fun depth => do
      advance
      recordItems (recordLength name fields.length) depth 0 fields blank
  | '\x7b' =>
    nested depth fun depth => do
      let (x, seen) ← object (recordMember fields depth) (blank, [])
      -- Only the first missing field is reported.
      match fields.find? fun f => f.required && !seen.contains f.name with
      | some f => failHere (.mismatch (.missingField f.name))
      | none => return x
  | _ => wrongKind ("struct " ++ name)

/-! ## Section 6: Whole texts -/

/-- Reads the whole text. -/
def run {α : Type} (read : Reader α) (text : String) : Except Fault α := do
  let (x, cur) ← read (Cursor.start text.toList)
  let cur := skipSpaces cur cur.rest
  if cur.rest.isEmpty then return x else throw (cur.ahead .trailingCharacters)

end Reader

/-- The value that a text stands for. -/
def parse (text : String) : Except Fault Json := (Reader.value nestingLimit).run text

end StackSurvey.Json
