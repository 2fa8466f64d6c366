import StackSurvey.Mismatch
import StackSurvey.Dictionary

/-! # TOML values

    Every value knows the part of the text it was written in, so that a mismatch can point at
    it: its own text, or the header for a table that has one.  The tables of a document are kept
    with their names ascending. -/

namespace StackSurvey.Toml

/-- A part of a text, in bytes from its start; `stop` is excluded. -/
structure Span where
  start : Nat
  stop : Nat
deriving DecidableEq, Repr

/-- How a table came about, which decides what may still be added to it. -/
inductive Origin where
  /-- Only passed through on the way to other tables by a header. -/
  | passed
  /-- Made by a dotted key. -/
  | dotted
  /-- Given by a header. -/
  | header
  /-- Written in braces. -/
  | inline
deriving DecidableEq, Repr

inductive Node where
  | text (span : Span) (s : String)
  | whole (span : Span) (n : Int)
  | double (span : Span) (x : Binary64)
  | flag (span : Span) (b : Bool)
  /-- A date, a time or both, in normal form. -/
  | moment (span : Span) (s : String)
  /-- `tables` marks a list that double-bracket headers made. -/
  | list (span : Span) (tables : Bool) (items : List Node)
  | table (span : Span) (origin : Origin) (entries : List (String × Node))

/-- The part of the text a value was written in. -/
def Node.span : Node → Span
  | .text span _ | .whole span _ | .double span _ | .flag span _ | .moment span _
  | .list span _ _ | .table span _ _ => span

/-- What a value is, for a message. -/
def Node.found : Node → Found
  | .text _ s => .text s
  | .whole _ n => .whole n
  | .double _ x => .double x
  | .flag _ b => .flag b
  | .moment _ _ => .map
  | .list _ _ _ => .sequence
  | .table _ _ _ => .map

/-- Why a text does not give what was asked for. -/
inductive Fault where
  /-- It is no TOML; the reading stopped at byte `offset`. -/
  | syntaxAt (offset : Nat)
  /-- The value written at `span` is not what it should be. -/
  | mismatch (span : Span) (m : Mismatch)
deriving DecidableEq

/-! ## Section 1: Pointing at a part of a text -/

/-- The lines of a text; the last one may be empty. -/
def linesOf (chars : List Char) : List (List Char) :=
  chars.foldr (fun c acc =>
    if c = '\n' then [] :: acc
    else match acc with
      | [] => [[c]]
      | line :: rest => (c :: line) :: rest) [[]]

def byteLength (chars : List Char) : Nat := chars.foldl (fun n c => n + c.utf8Size) 0

/-- The line and the column, both from zero, of byte `offset`; columns are characters. -/
def placeOf (offset : Nat) : List (List Char) → Nat × Nat
  | [] => (0, 0)
  | line :: rest =>
    let size := byteLength line
    if offset ≤ size || rest.isEmpty then (0, columnOf offset line)
    else
      let (l, c) := placeOf (offset - size - 1) rest
      (l + 1, c)
where
  /-- The number of characters before byte `offset` of a line. -/
  columnOf (offset : Nat) : List Char → Nat
    | [] => offset
    | c :: rest => if c.utf8Size ≤ offset then columnOf (offset - c.utf8Size) rest + 1 else 0

/-- Copies the line where `span` starts, with carets below it, and says what is wrong. -/
def pointAt (text : String) (span : Span) (message : String) : String :=
  let lines := linesOf text.toList
  let (l, c) := placeOf span.start lines
  let number := toString (l + 1)
  let content := lines.getD l []
  -- The carets do not go beyond the end of the line.
  let room := byteLength content - c
  let carets := max 1 (min (span.stop - span.start) room)
  let gutter := String.ofList (List.replicate (number.length + 1) ' ')
  "TOML parse error at line " ++ number ++ ", column " ++ toString (c + 1) ++ "\n" ++
    gutter ++ "|\n" ++
    number ++ " | " ++ String.ofList content ++ "\n" ++
    gutter ++ "|" ++ String.ofList (List.replicate (c + 1) ' ') ++
      String.ofList (List.replicate carets '^') ++ "\n" ++
    message ++ "\n"

def Fault.message (text : String) : Fault → String
  | .syntaxAt offset => pointAt text ⟨offset, offset⟩ "invalid syntax"
  | .mismatch span m => pointAt text span (m.message Binary64.plain)

end StackSurvey.Toml
