import StackSurvey.Toml.Scalar
import StackSurvey.Toml.Text

/-! # TOML documents

    A document is a list of statements: headers, and assignments that belong to the last header.
    `Statement.build` puts them together into one table and refuses what would define a thing
    twice.  A table may be added to by keys of its own section only; headers may add further
    tables below a table, unless it was written in braces. -/

namespace StackSurvey.Toml

open Reader (Key)

/-! ## Section 1: Putting tables together -/

/-- The entries of a table, names ascending. -/
abbrev Entries : Type := List (String × Node)

def Entries.find? (name : String) : Entries → Option Node := Dictionary.get? name

def Entries.set (name : String) (node : Node) : Entries → Entries := Dictionary.putSorted name node

/-- Enters `node` at a key below `entries`, where its name must be new.  The tables on the way
    must be new, made by dotted keys of the same section, or only passed by headers; `own` says
    whether `entries` may take a value themselves, which a table only passed may not. -/
def assign (own : Bool) (entries : Entries) (node : Node) : List Key → Option Entries
  | [] => none
  | [k] =>
    if own && (Entries.find? k.name entries).isNone then some (Entries.set k.name node entries)
    else none
  | k :: rest =>
    match Entries.find? k.name entries with
    | none => do
      let inner ← assign true [] node rest
      return Entries.set k.name (.table k.span .dotted inner) entries
    | some (.table span .dotted inner) => do
      let inner ← assign true inner node rest
      return Entries.set k.name (.table span .dotted inner) entries
    -- A table that a header has passed through may only be gone through.
    | some (.table span .passed inner) => do
      let inner ← assign false inner node rest
      return Entries.set k.name (.table span .passed inner) entries
    | some _ => none

/-- Changes the last item of a list. -/
def mapLast {α : Type} (f : α → Option α) : List α → Option (List α)
  | [] => none
  | [x] => (f x).map ([·])
  | x :: rest => (mapLast f rest).map (x :: ·)

mutual

/-- Changes the entries of the table that a header names, starting at `entries`.  Tables on the
    way that do not exist come about by being passed. -/
def within (change : Key → Entries → Option Entries) : List Key → Entries → Option Entries
  | [], _ => none
  | [k], entries => change k entries
  | k :: rest, entries =>
    match Entries.find? k.name entries with
    | none => do
      let inner ← within change rest []
      return Entries.set k.name (.table k.span .passed inner) entries
    | some node => do
      let node ← withinNode change rest node
      return Entries.set k.name node entries

/-- The same below a value: a table that was not written in braces, or the last of the tables
    that double-bracket headers made. -/
def withinNode (change : Key → Entries → Option Entries) (rest : List Key) :
    Node → Option Node
  -- What is written in braces is complete.
  | .table _ .inline _ => none
  | .table span origin inner => do
    let inner ← within change rest inner
    return .table span origin inner
  | .list span true items => do
    -- A header speaks of the table that was added last.
    let items ← mapLast (fun
      | .table s origin inner => do
        let inner ← within change rest inner
        return .table s origin inner
      | _ => none) items
    return .list span true items
  | _ => none

end

/-- One expression of a document. -/
inductive Statement where
  | assign (key : List Key) (node : Node)
  | table (key : List Key) (span : Span)
  | element (key : List Key) (span : Span)

/-- The entries that a header starts with: none, or those of a table only passed so far. -/
def opened (k : Key) (entries : Entries) : Option Entries :=
  match Entries.find? k.name entries with
  | none => some []
  | some (.table _ .passed inner) => some inner
  | some _ => none

/-- The assignments up to the next header, and what follows them. -/
def section? : List Statement → List (List Key × Node) × List Statement
  | .assign key node :: rest =>
    let (body, rest) := section? rest
    ((key, node) :: body, rest)
  | rest => ([], rest)

/-- Enters the assignments of a section. -/
def assignAll (entries : Entries) (body : List (List Key × Node)) : Option Entries :=
  body.foldlM (fun entries (key, node) => assign true entries node key) entries

/-- The table at a header, with the assignments of its section. -/
def putTable (span : Span) (body : List (List Key × Node)) (k : Key) (entries : Entries) :
    Option Entries := do
  let inner ← assignAll (← opened k entries) body
  return Entries.set k.name (.table span .header inner) entries

/-- A further table at a double-bracket header, with the assignments of its section. -/
def putElement (span : Span) (body : List (List Key × Node)) (k : Key) (entries : Entries) :
    Option Entries := do
  let element := Node.table span .header (← assignAll [] body)
  match Entries.find? k.name entries with
  | none => return Entries.set k.name (.list span true [element]) entries
  | some (.list first true items) =>
    return Entries.set k.name (.list first true (items ++ [element])) entries
  | some _ => none

/-- Puts the sections after the first one together. -/
def buildFrom (root : Entries) : (fuel : Nat) → List Statement → Option Entries
  | _, [] => some root
  | 0, _ => none
  | fuel + 1, .table key span :: rest => do
    let (body, rest) := section? rest
    buildFrom (← within (putTable span body) key root) fuel rest
  | fuel + 1, .element key span :: rest => do
    let (body, rest) := section? rest
    buildFrom (← within (putElement span body) key root) fuel rest
  | fuel + 1, .assign _ _ :: rest => buildFrom root fuel rest

/-- The table that statements make up. -/
def build (statements : List Statement) : Option Entries := do
  let (body, rest) := section? statements
  buildFrom (← assignAll [] body) (rest.length + 1) rest

/-! ## Section 2: Reading -/

namespace Reader

/-- How deep brackets may nest. -/
def nestingLimit : Nat := 80

/-- The items of a list whose bracket was taken, and the closing bracket. -/
def items (item : Reader Node) : (fuel : Nat) → Reader (List Node)
  | 0 => fail
  | fuel + 1 => do
    blankLines
    if (← peek) == some ']' then
      advance
      return []
    let x ← item
    blankLines
    match ← next with
    | ',' => return x :: (← items item fuel)
    | ']' => return [x]
    | _ => fail

/-- The entries of a table whose brace was taken, and the closing brace. -/
def entries (item : Reader Node) : (fuel : Nat) → Entries → Reader Entries
  | 0, _ => fail
  | fuel + 1, acc => do
    blankLines
    if (← peek) == some '\x7d' then
      advance
      return acc
    let k ← key
    spaces
    expect '='
    spaces
    let node ← item
    match assign true acc node k with
    | none => fail
    | some acc =>
      blankLines
      match ← next with
      | ',' => entries item fuel acc
      | '\x7d' => return acc
      | _ => fail

/-- A value, the values inside its brackets being read by `inner`. -/
def valueOver (inner : Option (Reader Node)) : Reader Node := do
  let start ← offset
  let fuel := (← remaining) + 1
  match ← peek with
  | some '"' | some '\'' =>
    let s ← quoted
    return .text ⟨start, ← offset⟩ s
  | some '[' =>
    advance
    match inner with
    | none => fail
    | some item =>
      let xs ← items item fuel
      return .list ⟨start, ← offset⟩ false xs
  | some '\x7b' =>
    advance
    match inner with
    | none => fail
    | some item =>
      let es ← entries item fuel []
      return .table ⟨start, ← offset⟩ .inline es
  | _ =>
    let s ← scalar
    let span : Span := ⟨start, ← offset⟩
    match s with
    | .whole n => return .whole span n
    | .double x => return .double span x
    | .flag b => return .flag span b
    | .moment s => return .moment span s

/-- A value whose brackets nest at most `depth` deep. -/
def value : (depth : Nat) → Reader Node
  | 0 => valueOver none
  | depth + 1 => valueOver (some (value depth))

/-- A header or an assignment, up to the end of its line. -/
def statement : Reader Statement := do
  let start ← offset
  let s ←
    if ← literal? ['[', '['] then do
      spaces
      let k ← key
      if ← literal? [']', ']'] then pure (Statement.element k ⟨start, ← offset⟩) else fail
    else if ← literal? ['['] then do
      spaces
      let k ← key
      expect ']'
      pure (Statement.table k ⟨start, ← offset⟩)
    else do
      let k ← key
      spaces
      expect '='
      spaces
      pure (Statement.assign k (← value nestingLimit))
  endOfLine
  return s

def statements : (fuel : Nat) → Reader (List Statement)
  | 0 => fail
  | fuel + 1 => do
    blankLines
    if (← peek).isNone then return []
    let s ← statement
    return s :: (← statements fuel)

end Reader

/-- The document that a text is; a byte order mark at its start does not count. -/
def parse (text : String) : Except Fault Node := do
  let chars := text.toList
  let read : Toml.Reader (List Statement) := do
    let _ ← Reader.literal? ['\uFEFF']
    Reader.statements (chars.length + 1)
  match read ⟨chars, 0⟩ with
  | .error offset => throw (.syntaxAt offset)
  | .ok (statements, cur) =>
    match build statements with
    | none => throw (.syntaxAt cur.offset)
    | some entries => return .table ⟨0, byteLength chars⟩ .header entries

end StackSurvey.Toml
